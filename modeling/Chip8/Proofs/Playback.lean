import Chip8.Proofs.Halting
import Chip8.Proofs.Receivers
import Chip8.Terminal.Playback

/-! # Every frame is printed once

A playback is compared with the same machine without anybody who takes its frames. Whatever
the order in which the threads move, the machine goes through the same states, and the
frames that it has drawn are those printed, the one that is about to be printed and the one
that is still offered. A halted machine offers nothing and an ended thread holds nothing, so
nothing is missing from the text of a playback that has ended.
-/

namespace Chip8

def Operation.isPlayed : Operation → Bool
  | .cycle _ | .tickDelay | .tickSound => true
  | _ => false

/-- A run does no cycle after one that has failed. -/
def Console.StopsAtFault (console : Console) (operations : List Operation) : Prop :=
  console.EveryCycle (fun before _ => before.machine.fault = none) operations

namespace Terminal

def lines (frames : List String) : String :=
  String.join (frames.map fun frame => frame ++ "\n")

theorem lines_append (first second : List String) :
    lines (first ++ second) = lines first ++ lines second := by
  rw [lines, List.map_append, String.join_append]
  rfl

theorem lines_singleton (frame : String) : lines [frame] = frame ++ "\n" := by
  simp [lines]

namespace Playback

/-! ## Schedules -/

def Action.operations : Action → List Operation
  | .cycle random => [.cycle random]
  | .tickDelay => [.tickDelay]
  | .tickSound => [.tickSound]
  | .handOver | .print | .close | .finish => []

def operationsOf (schedule : List Action) : List Operation :=
  schedule.flatMap Action.operations

def Action.isMove : Action → Bool
  | .handOver | .print | .close | .finish => true
  | .cycle _ | .tickDelay | .tickSound => false

theorem run?_cons_eq_some_iff {playback final : Playback} {action : Action}
    {rest : List Action} :
    playback.run? (action :: rest) = some final ↔
      ∃ next, playback.step? action = some next ∧ next.run? rest = some final :=
  Option.bind_eq_some_iff

theorem run?_append {playback middle : Playback} {first second : List Action}
    (ran : playback.run? first = some middle) :
    playback.run? (first ++ second) = middle.run? second := by
  induction first generalizing playback with
  | nil =>
      cases ran
      rfl
  | cons action rest ih =>
      obtain ⟨next, taken, later⟩ := run?_cons_eq_some_iff.mp ran
      show (playback.step? action).bind _ = _
      rw [taken]
      exact ih later

/-- What an action needs, and what it leaves behind. -/
inductive Takes (playback : Playback) : Action → Playback → Prop where
  | cycle (random : UInt8) (isOpen : playback.closed = false)
      (free : playback.offered = none) (running : playback.console.machine.fault = none) :
      Takes playback (.cycle random)
        { playback with
          console := (playback.console.cycle random).console
          offered := (playback.console.cycle random).delivered.map Delivery.frame }
  | tickDelay (isOpen : playback.closed = false) :
      Takes playback .tickDelay
        { playback with console := (playback.console.perform .tickDelay).console }
  | tickSound (isOpen : playback.closed = false) :
      Takes playback .tickSound
        { playback with console := (playback.console.perform .tickSound).console }
  | handOver (frame : String) (offered : playback.offered = some frame)
      (idle : playback.taken = none) (awake : playback.ended = false) :
      Takes playback .handOver { playback with offered := none, taken := some frame }
  | print (frame : String) (taken : playback.taken = some frame) :
      Takes playback .print
        { playback with taken := none, output := playback.output ++ frame ++ "\n" }
  | close (isOpen : playback.closed = false) (free : playback.offered = none)
      (halted : playback.console.machine.isHalted = true) :
      Takes playback .close { playback with closed := true }
  | finish (closed : playback.closed = true) (idle : playback.taken = none)
      (awake : playback.ended = false) :
      Takes playback .finish { playback with ended := true }

theorem step?_eq_some_iff {playback next : Playback} {action : Action} :
    playback.step? action = some next ↔ playback.Takes action next := by
  constructor
  · intro stepped
    cases action with
    | cycle random =>
        obtain ⟨allowed, left⟩ := Option.ite_none_left_eq_some.mp stepped
        simp only [Machine.isHalted, Bool.or_eq_true, not_or, Bool.not_eq_true,
          Option.isSome_eq_false_iff, Option.isNone_iff_eq_none] at allowed
        cases left
        exact .cycle random allowed.1.1 allowed.1.2 allowed.2
    | tickDelay =>
        obtain ⟨isOpen, left⟩ := Option.ite_none_left_eq_some.mp stepped
        cases left
        exact .tickDelay (Bool.eq_false_iff.mpr isOpen)
    | tickSound =>
        obtain ⟨isOpen, left⟩ := Option.ite_none_left_eq_some.mp stepped
        cases left
        exact .tickSound (Bool.eq_false_iff.mpr isOpen)
    | handOver =>
        simp only [step?] at stepped
        split at stepped
        · rename_i frame offered idle
          obtain ⟨awake, left⟩ := Option.ite_none_left_eq_some.mp stepped
          cases left
          exact .handOver frame offered idle (Bool.eq_false_iff.mpr awake)
        · cases stepped
    | print =>
        simp only [step?] at stepped
        split at stepped
        · rename_i frame taken
          cases stepped
          exact .print frame taken
        · cases stepped
    | close =>
        obtain ⟨allowed, left⟩ := Option.ite_none_right_eq_some.mp stepped
        simp only [Bool.and_eq_true, Bool.not_eq_true', Option.isNone_iff_eq_none] at allowed
        cases left
        exact .close allowed.1.1 allowed.1.2 allowed.2
    | finish =>
        obtain ⟨allowed, left⟩ := Option.ite_none_right_eq_some.mp stepped
        simp only [Bool.and_eq_true, Bool.not_eq_true', Option.isNone_iff_eq_none] at allowed
        cases left
        exact .finish allowed.1.1 allowed.1.2 allowed.2
  · intro takes
    cases takes with
    | cycle random isOpen free running => simp [step?, isOpen, free, Machine.isHalted, running]
    | tickDelay isOpen | tickSound isOpen => simp [step?, isOpen]
    | handOver frame offered idle awake => simp [step?, offered, idle, awake]
    | print frame taken => simp [step?, taken]
    | close isOpen free halted => simp [step?, isOpen, free, halted]
    | finish closed idle awake => simp [step?, closed, idle, awake]

/-! ## The machine without its spectators -/

section Shows

variable {playback next final : Playback} {chip : Console} {drawn : List String}
  {action : Action} {schedule : List Action}

/-- A playback of a chip that has drawn some frames so far. -/
structure Shows (playback : Playback) (chip : Console) (drawn : List String) : Prop where
  machine : playback.console.machine = chip.machine
  plugged : playback.console.sink = some ⟨0, true⟩
  /-- Every frame that is not yet printed is on its way, the last one drawn behind. -/
  frames : ∃ printed, playback.output = lines printed ∧
    drawn = printed ++ playback.taken.toList ++ playback.offered.toList
  /-- A fault draws nothing, so a halted machine has no frame to offer. -/
  running : playback.offered.isSome = true → chip.machine.fault = none
  closed : playback.closed = true → chip.machine.isHalted = true
  ended : playback.ended = true → playback.closed = true ∧ playback.taken = none

/-- A cycle hands over what it draws as long as the receiver is there. -/
theorem delivered_cycle {console : Console} {receiver : Nat}
    (plugged : console.sink = some ⟨receiver, true⟩) (random : UInt8) :
    (console.cycle random).delivered.map Delivery.frame = console.drawn? (.cycle random) ∧
      (console.cycle random).console.sink = some ⟨receiver, true⟩ := by
  have kept : (Operation.cycle random).keeps receiver = true := rfl
  obtain ⟨plugged, handed, -⟩ := Console.serving_step plugged kept
  show (console.perform (.cycle random)).delivered.map _ = _ ∧ _
  refine ⟨?_, plugged⟩
  cases delivered : (console.perform (.cycle random)).delivered with
  | none =>
      rw [Report.frameTo?, delivered] at handed
      exact handed
  | some delivery => exact (Console.drawn_of_delivered delivered).1.symm

theorem fault_of_drawn {console : Console} {random : UInt8} {frame : String}
    (drawn : console.drawn? (.cycle random) = some frame) :
    (console.machine.cycle random).machine.fault = none := by
  rw [Console.drawn?_cycle] at drawn
  obtain ⟨drew, -⟩ := Option.ite_none_right_eq_some.mp drawn
  rw [Machine.fault_cycle]
  exact (Machine.drew_cycle_iff.mp drew).1

theorem Shows.offers (shows : playback.Shows chip drawn) (random : UInt8) :
    (playback.console.cycle random).delivered.map Delivery.frame =
      chip.drawn? (.cycle random) := by
  rw [(delivered_cycle shows.plugged random).1]
  exact Console.drawn?_of_machine shows.machine (.cycle random)

theorem Shows.cycle (shows : playback.Shows chip drawn) (isOpen : playback.closed = false)
    (free : playback.offered = none) (random : UInt8) :
    let report := playback.console.cycle random
    Shows { playback with
        console := report.console
        offered := report.delivered.map Delivery.frame }
      (chip.after [.cycle random]) (drawn ++ chip.drawings [.cycle random]) := by
  have offered := shows.offers random
  have left : (chip.after [.cycle random]).machine = (chip.machine.cycle random).machine :=
    Console.proceed_machine chip _
  obtain ⟨printed, output, frames⟩ := shows.frames
  constructor
  case machine =>
    rw [left, ← shows.machine]
    exact Console.proceed_machine playback.console _
  case plugged => exact (delivered_cycle shows.plugged random).2
  case frames =>
    refine ⟨printed, output, ?_⟩
    rw [free] at frames
    simp only [Option.toList_none, List.append_nil] at frames
    rw [offered, frames, Console.drawings, Console.drawings, List.append_nil]
  case running =>
    intro waits
    rw [offered] at waits
    obtain ⟨frame, drew⟩ := Option.isSome_iff_exists.mp waits
    rw [left]
    exact fault_of_drawn drew
  case closed =>
    intro closed
    exact absurd (isOpen.symm.trans closed) Bool.false_ne_true
  case ended =>
    intro ended
    exact absurd (isOpen.symm.trans (shows.ended ended).1) Bool.false_ne_true

theorem Shows.ticked (shows : playback.Shows chip drawn) (tick : Timers → Timers) :
    Shows { playback with console.machine.timers := tick playback.console.machine.timers }
      { chip with machine.timers := tick chip.machine.timers } drawn :=
  { shows with
    machine := congrArg (fun machine : Machine =>
      { machine with timers := tick machine.timers }) shows.machine }

theorem Shows.undrawn (shows : playback.Shows chip drawn) : playback.Shows chip (drawn ++ []) := by
  rwa [List.append_nil]

/-- Whatever an action does, the playback goes on to be one of the chip that does the same. -/
theorem Shows.step (shows : playback.Shows chip drawn) (takes : playback.Takes action next) :
    next.Shows (chip.after action.operations) (drawn ++ chip.drawings action.operations) := by
  obtain ⟨printed, output, frames⟩ := shows.frames
  cases takes with
  | cycle random isOpen free running => exact shows.cycle isOpen free random
  | tickDelay isOpen => exact (shows.ticked Timers.tickDelay).undrawn
  | tickSound isOpen => exact (shows.ticked Timers.tickSound).undrawn
  -- A frame that is handed over or printed keeps its place among those that were drawn.
  | handOver frame offered idle awake =>
      refine .undrawn { shows with
        frames := ⟨printed, output, ?_⟩, running := nofun, ended := ?_ }
      · rw [offered, idle] at frames
        simpa using frames
      · intro ended
        exact absurd (awake.symm.trans ended) Bool.false_ne_true
  | print frame taken =>
      refine .undrawn { shows with frames := ⟨printed ++ [frame], ?_, ?_⟩, ended := ?_ }
      · show playback.output ++ frame ++ "\n" = lines (printed ++ [frame])
        rw [lines_append, lines_singleton, output, String.append_assoc]
      · rw [taken] at frames
        simpa using frames
      · intro ended
        exact ⟨(shows.ended ended).1, rfl⟩
  | close isOpen free halted =>
      refine .undrawn { shows with closed := ?_, ended := ?_ }
      · intro _
        show chip.machine.isHalted = true
        rw [← shows.machine]
        exact halted
      · intro ended
        exact absurd (isOpen.symm.trans (shows.ended ended).1) Bool.false_ne_true
  | finish closed idle awake =>
      exact .undrawn { shows with ended := fun _ => ⟨closed, idle⟩ }

theorem Shows.run (shows : playback.Shows chip drawn)
    (ran : playback.run? schedule = some final) :
    final.Shows (chip.after (operationsOf schedule))
      (drawn ++ chip.drawings (operationsOf schedule)) := by
  induction schedule generalizing playback chip drawn with
  | nil =>
      cases ran
      exact shows.undrawn
  | cons action rest ih =>
      obtain ⟨next, stepped, later⟩ := run?_cons_eq_some_iff.mp ran
      have left := ih (shows.step (step?_eq_some_iff.mp stepped)) later
      rw [operationsOf, List.flatMap_cons, Console.after_append, Console.drawings_append,
        ← List.append_assoc]
      exact left

/-- The threads do no cycle once the program has failed. -/
theorem Shows.stopsAtFault (shows : playback.Shows chip drawn)
    (ran : playback.run? schedule = some final) :
    chip.StopsAtFault (operationsOf schedule) := by
  induction schedule generalizing playback chip drawn with
  | nil => exact Console.everyCycle_nil
  | cons action rest ih =>
      obtain ⟨next, stepped, later⟩ := run?_cons_eq_some_iff.mp ran
      have takes := step?_eq_some_iff.mp stepped
      rw [operationsOf, List.flatMap_cons]
      refine Console.everyCycle_append.mpr ⟨?_, ih (shows.step takes) later⟩
      cases takes with
      | cycle random isOpen free running =>
          rw [shows.machine] at running
          exact Console.everyCycle_cons.mpr ⟨fun _ _ => running, Console.everyCycle_nil⟩
      | tickDelay isOpen | tickSound isOpen =>
          exact Console.everyCycle_cons.mpr ⟨nofun, Console.everyCycle_nil⟩
      | _ => exact Console.everyCycle_nil

/-! ## Moves of the threads -/

/-- How many moves the threads owe: two for a frame on offer, one for a frame taken, and one
for each thread that has not ended. -/
def owed (playback : Playback) : Nat :=
  2 * playback.offered.toList.length + playback.taken.toList.length +
    (!playback.closed).toNat + (!playback.ended).toNat

/-- Every move pays for itself, and what is drawn is owed two of them. -/
theorem Shows.owed_step (shows : playback.Shows chip drawn)
    (takes : playback.Takes action next) :
    action.isMove.toNat + next.owed =
      playback.owed + 2 * (chip.drawings action.operations).length := by
  cases takes with
  | cycle random isOpen free running =>
      have offered := shows.offers random
      simp only [owed, offered, free, Action.isMove, Action.operations, Console.drawings,
        List.append_nil, Option.toList_none, List.length_nil, Bool.toNat_false]
      omega
  | tickDelay isOpen | tickSound isOpen => exact Nat.zero_add _
  | handOver frame offered idle awake =>
      show 1 + owed _ = owed _ + 0
      simp only [owed, offered, idle, Option.toList_none, Option.toList_some, List.length_nil,
        List.length_singleton]
      omega
  | print frame taken =>
      show 1 + owed _ = owed _ + 0
      simp only [owed, taken, Option.toList_none, Option.toList_some, List.length_nil,
        List.length_singleton]
      omega
  | close isOpen free halted =>
      show 1 + owed _ = owed _ + 0
      simp only [owed, isOpen, Bool.not_true, Bool.not_false, Bool.toNat_true, Bool.toNat_false]
      omega
  | finish closed idle awake =>
      show 1 + owed _ = owed _ + 0
      simp only [owed, awake, Bool.not_true, Bool.not_false, Bool.toNat_true, Bool.toNat_false]
      omega

theorem Shows.owed_run (shows : playback.Shows chip drawn)
    (ran : playback.run? schedule = some final) :
    schedule.countP Action.isMove + final.owed =
      playback.owed + 2 * (chip.drawings (operationsOf schedule)).length := by
  induction schedule generalizing playback chip drawn with
  | nil =>
      cases ran
      exact Nat.add_comm 0 _
  | cons action rest ih =>
      obtain ⟨next, stepped, later⟩ := run?_cons_eq_some_iff.mp ran
      have takes := step?_eq_some_iff.mp stepped
      have first := shows.owed_step takes
      have others := ih (shows.step takes) later
      have counted : (action :: rest).countP Action.isMove =
          rest.countP Action.isMove + action.isMove.toNat := by
        rw [List.countP_cons]
        cases action.isMove <;> rfl
      have drawings : (chip.drawings (operationsOf (action :: rest))).length =
          (chip.drawings action.operations).length +
            ((chip.after action.operations).drawings (operationsOf rest)).length := by
        rw [operationsOf, List.flatMap_cons, Console.drawings_append, List.length_append]
        rfl
      omega

theorem Shows.free_of_closed (shows : playback.Shows chip drawn)
    (closed : playback.closed = true) : playback.offered = none := by
  have halted := shows.closed closed
  cases offered : playback.offered with
  | none => rfl
  | some frame =>
      have running := shows.running (by rw [offered]; rfl)
      rw [Machine.isHalted, running] at halted
      cases halted

/-- The threads never wait for each other: as long as they have not both ended, one of them
can move, or the machine can do its next cycle, whatever byte chance offers. -/
theorem Shows.goes_on (shows : playback.Shows chip drawn)
    (unfinished : playback.exit? = none) :
    (∃ move, move.isMove = true ∧ (playback.step? move).isSome = true) ∨
      ∀ random, (playback.step? (.cycle random)).isSome = true := by
  have takes {action : Action} {next : Playback} (takes : playback.Takes action next) :
      (playback.step? action).isSome = true :=
    Option.isSome_iff_exists.mpr ⟨next, step?_eq_some_iff.mpr takes⟩
  have unended : ¬ (playback.closed = true ∧ playback.ended = true) := by
    simpa [exit?] using unfinished
  -- The printing thread goes first if it holds a frame, then the one that offers a frame.
  cases taken : playback.taken with
  | some frame => exact Or.inl ⟨.print, rfl, takes (.print frame taken)⟩
  | none =>
      cases offered : playback.offered with
      | some frame =>
          have awake : playback.ended = false := by
            refine Bool.eq_false_iff.mpr fun ended => ?_
            have free := shows.free_of_closed (shows.ended ended).1
            rw [offered] at free
            cases free
          exact Or.inl ⟨.handOver, rfl, takes (.handOver frame offered taken awake)⟩
      | none =>
          cases isClosed : playback.closed with
          | true =>
              have awake : playback.ended = false :=
                Bool.eq_false_iff.mpr fun ended => unended ⟨isClosed, ended⟩
              exact Or.inl ⟨.finish, rfl, takes (.finish isClosed taken awake)⟩
          | false =>
              cases stored : playback.console.machine.fault with
              | none => exact Or.inr fun random => takes (.cycle random isClosed offered stored)
              | some fault =>
                  have halted : playback.console.machine.isHalted = true := by
                    rw [Machine.isHalted, stored]
                    rfl
                  exact Or.inl ⟨.close, rfl, takes (.close isClosed offered halted)⟩

/-- Where no frame is on its way, all of them have been printed. -/
theorem Shows.output (shows : playback.Shows chip drawn) (free : playback.offered = none)
    (idle : playback.taken = none) : playback.output = lines drawn := by
  obtain ⟨printed, output, frames⟩ := shows.frames
  rw [idle, free] at frames
  simp only [Option.toList_none, List.append_nil] at frames
  rw [output, frames]

/-- What a playback that has ended shows. -/
theorem Shows.exit {exit : Exit} (shows : playback.Shows chip drawn)
    (exited : playback.exit? = some exit) :
    chip.machine.isHalted = true ∧ exit = ⟨0, lines drawn, ""⟩ := by
  obtain ⟨both, printout⟩ := Option.ite_none_right_eq_some.mp exited
  simp only [Bool.and_eq_true] at both
  have output := shows.output (shows.free_of_closed both.1) (shows.ended both.2).2
  cases printout
  exact ⟨shows.closed both.1, by rw [output]⟩

/-! ## Every run can be played -/

/-- The cycling thread is between two cycles, and no frame is on its way. -/
structure Idle (playback : Playback) : Prop where
  offered : playback.offered = none
  taken : playback.taken = none
  closed : playback.closed = false
  ended : playback.ended = false

theorem run?_cons_of_takes (takes : playback.Takes action next)
    (later : next.run? schedule = some final) :
    playback.run? (action :: schedule) = some final :=
  run?_cons_eq_some_iff.mpr ⟨next, step?_eq_some_iff.mpr takes, later⟩

theorem run?_of_takes (takes : playback.Takes action next) :
    playback.run? [action] = some next :=
  run?_cons_of_takes takes rfl

/-- A cycle can be played to the end: if it draws, its frame is handed over and printed. -/
theorem Idle.plays_cycle (idle : playback.Idle)
    (running : playback.console.machine.fault = none) (random : UInt8) :
    ∃ schedule next, operationsOf schedule = [.cycle random] ∧
      playback.run? schedule = some next ∧ next.Idle := by
  have cycled := Takes.cycle random idle.closed idle.offered running
  cases offered : (playback.console.cycle random).delivered.map Delivery.frame with
  | none =>
      rw [offered] at cycled
      exact ⟨_, _, rfl, run?_of_takes cycled, ⟨rfl, idle.taken, idle.closed, idle.ended⟩⟩
  | some frame =>
      rw [offered] at cycled
      have ran := run?_cons_of_takes cycled <|
        run?_cons_of_takes (.handOver frame rfl idle.taken idle.ended) <|
        run?_of_takes (.print frame rfl)
      exact ⟨_, _, rfl, ran, ⟨rfl, rfl, idle.closed, idle.ended⟩⟩

theorem Shows.plays_operation {operation : Operation} (shows : playback.Shows chip drawn)
    (idle : playback.Idle) (played : operation.isPlayed = true)
    (running : ∀ random, operation = .cycle random → chip.machine.fault = none) :
    ∃ schedule next, operationsOf schedule = [operation] ∧
      playback.run? schedule = some next ∧ next.Idle := by
  cases operation with
  | cycle random =>
      have running := running random rfl
      rw [← shows.machine] at running
      exact idle.plays_cycle running random
  | tickDelay =>
      exact ⟨_, _, rfl, run?_of_takes (.tickDelay idle.closed),
        ⟨idle.offered, idle.taken, idle.closed, idle.ended⟩⟩
  | tickSound =>
      exact ⟨_, _, rfl, run?_of_takes (.tickSound idle.closed),
        ⟨idle.offered, idle.taken, idle.closed, idle.ended⟩⟩
  | _ => cases played

theorem Shows.plays {operations : List Operation} (shows : playback.Shows chip drawn)
    (idle : playback.Idle)
    (played : ∀ operation ∈ operations, operation.isPlayed = true)
    (stops : chip.StopsAtFault operations) :
    ∃ schedule next, operationsOf schedule = operations ∧
      playback.run? schedule = some next ∧ next.Idle := by
  induction operations generalizing playback chip drawn with
  | nil => exact ⟨[], playback, rfl, rfl, idle⟩
  | cons operation rest ih =>
      obtain ⟨running, later⟩ := Console.everyCycle_cons.mp stops
      obtain ⟨schedule, next, does, ran, idle⟩ :=
        shows.plays_operation idle (played operation List.mem_cons_self) running
      have left := shows.run ran
      rw [does] at left
      -- `left` is the playback of the chip behind `operation`, so the rest can be played from it.
      obtain ⟨schedule', final, does', ran', idle'⟩ :=
        ih left idle (fun other among => played other (List.mem_cons_of_mem _ among)) later
      refine ⟨schedule ++ schedule', final, ?_, (run?_append ran).trans ran', idle'⟩
      rw [operationsOf, List.flatMap_append, ← operationsOf, ← operationsOf, does, does']
      rfl

/-- Both threads can end once the machine has halted and nothing is on its way. -/
theorem Idle.winds_up (idle : playback.Idle)
    (halted : playback.console.machine.isHalted = true) :
    ∃ final exit, playback.run? [.close, .finish] = some final ∧ final.exit? = some exit := by
  have ran := run?_cons_of_takes (.close idle.closed idle.offered halted) <|
    run?_of_takes (.finish rfl idle.taken idle.ended)
  exact ⟨_, _, ran, rfl⟩

end Shows

/-! ## From the start to the exit -/

/-- Once the arguments are understood, the file decides. -/
theorem start_eq_map {arguments : List String} {options : Options}
    (understood : Options.ofArguments arguments = .ok options)
    (files : String → Except ReadFailure (List UInt8)) :
    start arguments files =
      (ofFile options.path (files options.path)).map fun playback => (options, playback) := by
  rw [start, startReading, understood]
  rfl

/-- Whatever it takes to read a file, a start does with its contents what it does with a view of
the files that has them there. -/
theorem startReading_eq {m : Type → Type} [Monad m] [LawfulMonad m] {arguments : List String}
    {options : Options} (understood : Options.ofArguments arguments = .ok options)
    (readFile : String → m (Except ReadFailure (List UInt8))) :
    startReading readFile arguments =
      (fun contents => start arguments fun _ => contents) <$> readFile options.path := by
  simp only [startReading, understood, map_eq_pure_bind, start_eq_map understood]

theorem start_eq_ok {arguments : List String}
    {files : String → Except ReadFailure (List UInt8)} {options : Options} {program : List UInt8}
    (understood : Options.ofArguments arguments = .ok options)
    (readable : files options.path = .ok program)
    (fits : program.length ≤ Layout.programCapacity) :
    start arguments files =
      .ok (options, ofConsole (Console.create.load program).console) := by
  rw [start_eq_map understood, readable, ofFile, Console.withProgram_of_fits fits]
  rfl

theorem idle_ofConsole (console : Console) : (ofConsole console).Idle :=
  ⟨rfl, rfl, rfl, rfl⟩

theorem shows_ofConsole {console : Console} (unattached : console.attached = 0) :
    (ofConsole console).Shows console [] where
  machine := rfl
  plugged := by rw [← unattached]; rfl
  frames := ⟨[], rfl, rfl⟩
  running := nofun
  closed := nofun
  ended := nofun

theorem shows_load (program : List UInt8) :
    (ofConsole (Console.create.load program).console).Shows
      (Console.create.load program).console [] := by
  apply shows_ofConsole
  rw [Console.load_rest]
  rfl

/-- A playback runs a chip: its threads are at work, and what it does is what the chip does up
to its first fault, with every frame printed. -/
structure Runs (playback : Playback) (chip : Console) : Prop where
  isOpen : playback.closed = false
  awake : playback.ended = false
  machine {schedule : List Action} {current : Playback}
    (ran : playback.run? schedule = some current) :
    current.console.machine = (chip.after (operationsOf schedule)).machine
  stopsAtFault {schedule : List Action} {current : Playback}
    (ran : playback.run? schedule = some current) : chip.StopsAtFault (operationsOf schedule)
  /-- The threads go on, or the machine does, until both threads have ended. -/
  goesOn {schedule : List Action} {current : Playback}
    (ran : playback.run? schedule = some current) (unfinished : current.exit? = none) :
    (∃ move, move.isMove = true ∧ (current.step? move).isSome = true) ∨
      ∀ random, (current.step? (.cycle random)).isSome = true
  exits {schedule : List Action} {current : Playback} {exit : Exit}
    (ran : playback.run? schedule = some current) (exited : current.exit? = some exit) :
    (chip.after (operationsOf schedule)).machine.isHalted = true ∧
      exit = ⟨0, lines (chip.drawings (operationsOf schedule)), ""⟩
  /-- Every run of the chip up to its first fault can be played, cycle by cycle. -/
  plays (host : List Operation) (played : ∀ operation ∈ host, operation.isPlayed = true)
    (stops : chip.StopsAtFault host) :
    ∃ schedule current, operationsOf schedule = host ∧ playback.run? schedule = some current ∧
      current.output = lines (chip.drawings host)

theorem Shows.runs {playback : Playback} {chip : Console} (shows : playback.Shows chip [])
    (idle : playback.Idle) : playback.Runs chip where
  isOpen := idle.closed
  awake := idle.ended
  machine ran := (shows.run ran).machine
  stopsAtFault ran := shows.stopsAtFault ran
  goesOn ran := (shows.run ran).goes_on
  exits ran exited := (shows.run ran).exit exited
  plays := by
    intro host played stops
    obtain ⟨schedule, current, rfl, ran, idle⟩ := shows.plays idle played stops
    exact ⟨schedule, current, rfl, ran, (shows.run ran).output idle.offered idle.taken⟩

theorem runs_load (program : List UInt8) :
    (ofConsole (Console.create.load program).console).Runs (Console.create.load program).console :=
  (shows_load program).runs (idle_ofConsole _)

/-- A program that fits runs in a playback. In every schedule of its two threads, with ticks
at any points, no cycle comes after a fault; the threads never get stuck, and they make no more
moves than it takes to hand over and print each frame and to end. A schedule that ends has
printed every frame that the machine drew before its fault, in order and each with a line
break, and nothing else. And every run of the machine into its first fault has such a
schedule. -/
theorem every_frame_is_printed_once {arguments : List String}
    {files : String → Except ReadFailure (List UInt8)} {options : Options} {program : List UInt8}
    (understood : Options.ofArguments arguments = .ok options)
    (readable : files options.path = .ok program)
    (fits : program.length ≤ Layout.programCapacity) :
    ∃ playback, start arguments files = .ok (options, playback) ∧
      let chip := (Console.create.load program).console
      (∀ schedule current, playback.run? schedule = some current →
        let host := operationsOf schedule
        chip.StopsAtFault host ∧
        (∀ exit, current.exit? = some exit →
          (chip.after host).machine.isHalted = true ∧
            exit = ⟨0, lines (chip.drawings host), ""⟩) ∧
        (current.exit? = none →
          (∃ move, move.isMove = true ∧ (current.step? move).isSome = true) ∨
            ∀ random, (current.step? (.cycle random)).isSome = true) ∧
        schedule.countP Action.isMove ≤ 2 * (chip.drawings host).length + 2) ∧
      ∀ host, (∀ operation ∈ host, operation.isPlayed = true) → chip.StopsAtFault host →
        (chip.after host).machine.isHalted = true →
        ∃ schedule final, operationsOf schedule = host ∧ playback.run? schedule = some final ∧
          final.exit? = some ⟨0, lines (chip.drawings host), ""⟩ := by
  have shows := shows_load program
  have runs := runs_load program
  refine ⟨_, start_eq_ok understood readable fits, ?_, ?_⟩
  · intro schedule current ran
    refine ⟨runs.stopsAtFault ran, fun exit exited => runs.exits ran exited,
      runs.goesOn ran, ?_⟩
    have paid := shows.owed_run ran
    have first : (ofConsole (Console.create.load program).console).owed = 2 := rfl
    omega
  · intro host played stops halted
    obtain ⟨schedule, next, rfl, ran, idle⟩ :=
      shows.plays (idle_ofConsole _) played stops
    have left := shows.run ran
    rw [← left.machine] at halted
    obtain ⟨final, exit, woundUp, exited⟩ := idle.winds_up halted
    have whole := (run?_append ran).trans woundUp
    have does : operationsOf (schedule ++ [.close, .finish]) = operationsOf schedule := by
      rw [operationsOf, List.flatMap_append]
      exact List.append_nil _
    have printout := ((shows.run whole).exit exited).2
    rw [does] at printout
    exact ⟨_, final, does, whole, exited.trans (congrArg some printout)⟩

/-- The machine is gone before the last frame is printed. -/
def lateLastPrint : List Action :=
  [.cycle 0, .cycle 0, .tickDelay, .handOver, .cycle 0, .print, .cycle 0, .cycle 0, .tickSound,
    .handOver, .cycle 0, .close, .print, .finish]

theorem last_frame_outlives_machine :
    Options.ofArguments ["clear.ch8", "0"] = .ok ⟨"clear.ch8", 0⟩ ∧
    failingBehindDraw.length ≤ Layout.programCapacity ∧
    let chip := (Console.create.load failingBehindDraw).console
    ∃ playback, start ["clear.ch8", "0"] (fun _ => .ok failingBehindDraw) =
        .ok (⟨"clear.ch8", 0⟩, playback) ∧
      ∃ final, playback.run? lateLastPrint = some final ∧
        final.exit? = some ⟨0, lines (chip.drawings (operationsOf lateLastPrint)), ""⟩ ∧
        (chip.drawings (operationsOf lateLastPrint)).length = 2 ∧
        (chip.drawings (operationsOf lateLastPrint)).head? = some zeroFrame := by
  have delay : delay? "0" = some 0 := by decide +kernel
  have understood : Options.ofArguments ["clear.ch8", "0"] = .ok ⟨"clear.ch8", 0⟩ := by
    simp only [Options.ofArguments, delay]
  have fits : failingBehindDraw.length ≤ Layout.programCapacity := by decide
  obtain ⟨played, drawn⟩ :
      (((ofConsole (Console.create.load failingBehindDraw).console).run? lateLastPrint).bind
        exit?).isSome = true ∧
      ((Console.create.load failingBehindDraw).console.drawings
        (operationsOf lateLastPrint)).length = 2 := by
    decide +kernel
  obtain ⟨playback, started, schedules, _⟩ := @every_frame_is_printed_once _
    (fun _ => .ok failingBehindDraw) _ _ understood rfl fits
  have begun := started.symm.trans (start_eq_ok understood rfl fits)
  obtain ⟨_, rfl⟩ := Prod.mk.inj (Except.ok.inj begun)
  refine ⟨understood, fits, _, started, ?_⟩
  obtain ⟨exit, exited⟩ := Option.isSome_iff_exists.mp played
  obtain ⟨final, ran, exited⟩ := Option.bind_eq_some_iff.mp exited
  have printout := ((schedules lateLastPrint final ran).2.1 exit exited).2
  refine ⟨final, ran, exited.trans (congrArg some printout), drawn, ?_⟩
  have host : operationsOf lateLastPrint = [.cycle 0, .cycle 0] ++
      [.tickDelay, .cycle 0, .cycle 0, .cycle 0, .tickSound, .cycle 0] := rfl
  rw [host, Console.drawings_append, Console.drawings_zero rfl]
  rfl

end Playback

end Terminal

end Chip8
