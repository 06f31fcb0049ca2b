import Chip8.Proofs.Loading
import Chip8.Proofs.Numerals
import Chip8.Proofs.Playback

/-! # The command line

Which texts are delays is said by a grammar of decimal numbers, and the reader of delays
accepts exactly these texts (`delay?_eq_some_iff`). The outcome of a start follows in the order
in which the terminal program looks: at the arguments, then at the file, then at its size.
-/

namespace Chip8.Terminal

/-! ## Delays -/

def decimals : List Char :=
  ['0', '1', '2', '3', '4', '5', '6', '7', '8', '9']

/-- A text that stands for a delay: a number of 64 bits, perhaps behind a plus sign. -/
def IsDelay (text : String) (delay : Nat) : Prop :=
  delay < UInt64.size ∧
    ∃ digits, Numeral.Denotes decimals digits delay ∧
      (text.toList = digits ∨ text.toList = '+' :: digits)

theorem nodup_decimals : decimals.Nodup := by
  decide

theorem digit_iff {c : Char} {d : Nat} :
    decimals[d]? = some c ↔ c.isDigit = true ∧ c.toNat - '0'.toNat = d := by
  have written : ∀ d : Fin 10, decimals[d.val]? = some (Char.ofNat (48 + d.val)) := by decide
  have read : ∀ d : Fin 10, (Char.ofNat (48 + d.val)).isDigit = true ∧
      (Char.ofNat (48 + d.val)).toNat - '0'.toNat = d.val := by decide
  constructor
  · intro digit
    have small : d < 10 := (List.getElem?_eq_some_iff.mp digit).1
    obtain rfl := Option.some.inj (digit.symm.trans (written ⟨d, small⟩))
    exact read ⟨d, small⟩
  · rintro ⟨isDigit, rfl⟩
    simp only [Char.isDigit, Bool.and_eq_true, decide_eq_true_eq, ge_iff_le,
      UInt32.le_iff_toNat_le] at isDigit
    have low : 48 ≤ c.toNat := isDigit.1
    have high : c.toNat ≤ 57 := isDigit.2
    have digit := written ⟨c.toNat - 48, by omega⟩
    rw [Nat.add_sub_cancel' low, Char.ofNat_toNat] at digit
    exact digit

/-- Decimal digits are read by the sum of ten times the value before and their distance to
zero. -/
theorem readFrom?_decimals {value n : Nat} {cs : List Char} :
    Numeral.readFrom? decimals value cs = some n ↔
      cs.all Char.isDigit = true ∧
        cs.foldl (fun value digit => 10 * value + (digit.toNat - '0'.toNat)) value = n := by
  induction cs generalizing value with
  | nil => simp [Numeral.readFrom?]
  | cons c rest ih =>
      rw [Numeral.readFrom?, Option.bind_eq_some_iff, List.all_cons, Bool.and_eq_true,
        List.foldl_cons, and_assoc]
      constructor
      · rintro ⟨d, digit, later⟩
        obtain ⟨isDigit, rfl⟩ := digit_iff.mp ((Numeral.value?_eq_some_iff nodup_decimals).mp digit)
        exact ⟨isDigit, ih.mp later⟩
      · rintro ⟨isDigit, later⟩
        have digit := digit_iff.mpr ⟨isDigit, rfl⟩
        exact ⟨_, (Numeral.value?_eq_some_iff nodup_decimals).mpr digit, ih.mpr later⟩

theorem denotes_iff {digits : List Char} {n : Nat} :
    Numeral.Denotes decimals digits n ↔
      digits ≠ [] ∧ digits.all Char.isDigit = true ∧ decimalValue digits = n := by
  rw [Numeral.denotes_iff nodup_decimals]
  exact and_congr_right fun _ => readFrom?_decimals

theorem not_denotes_plus {rest : List Char} {n : Nat} :
    ¬ Numeral.Denotes decimals ('+' :: rest) n := by
  intro denotes
  have all := (denotes_iff.mp denotes).2.1
  rw [List.all_cons, Bool.and_eq_true] at all
  exact absurd all.1 (by decide)

/-- A plus sign in front is the only thing that may stand there besides digits. -/
theorem denotes_withoutPlus_iff {cs : List Char} {n : Nat} :
    Numeral.Denotes decimals (withoutPlus cs) n ↔
      ∃ digits, Numeral.Denotes decimals digits n ∧ (cs = digits ∨ cs = '+' :: digits) := by
  constructor
  · intro denotes
    unfold withoutPlus at denotes
    split at denotes
    · exact ⟨_, denotes, .inr rfl⟩
    · exact ⟨_, denotes, .inl rfl⟩
  · rintro ⟨digits, denotes, rfl | rfl⟩
    · unfold withoutPlus
      split
      · exact absurd denotes not_denotes_plus
      · exact denotes
    · exact denotes

/-- The delays that are read are those of the grammar. -/
theorem delay?_eq_some_iff {text : String} {delay : Nat} :
    delay? text = some delay ↔ IsDelay text delay := by
  rw [IsDelay, ← denotes_withoutPlus_iff, denotes_iff, delay?]
  generalize withoutPlus text.toList = digits
  simp only [delayLimit, Option.ite_none_right_eq_some, Bool.and_eq_true, Bool.not_eq_true',
    Option.some.injEq, List.isEmpty_eq_false_iff]
  constructor
  · rintro ⟨⟨⟨some, all⟩, small⟩, rfl⟩
    exact ⟨of_decide_eq_true small, some, all, rfl⟩
  · rintro ⟨small, some, all, rfl⟩
    exact ⟨⟨⟨some, all⟩, decide_eq_true small⟩, rfl⟩

theorem delay?_eq_none_iff {text : String} :
    delay? text = none ↔ ∀ delay, ¬ IsDelay text delay := by
  rw [Option.eq_none_iff_forall_ne_some]
  exact forall_congr' fun delay => not_congr delay?_eq_some_iff

/-! ## Arguments -/

/-- Arguments that make sense, and the options they stand for: a path alone, or a path and a
delay, behind which anything may follow. -/
inductive Understands : List String → Options → Prop where
  | path (path : String) : Understands [path] ⟨path, 100⟩
  | delay (path : String) {text : String} {delay : Nat} (isDelay : IsDelay text delay)
      (more : List String) : Understands (path :: text :: more) ⟨path, delay⟩

theorem ofArguments_eq_ok_iff {arguments : List String} {options : Options} :
    Options.ofArguments arguments = .ok options ↔ Understands arguments options := by
  constructor
  · intro understood
    rcases arguments with _ | ⟨path, _ | ⟨text, more⟩⟩
    · cases understood
    · cases understood
      exact .path path
    · simp only [Options.ofArguments] at understood
      split at understood
      · rename_i delay found
        cases understood
        exact .delay path (delay?_eq_some_iff.mp found) more
      · cases understood
  · rintro (path | ⟨path, isDelay, more⟩)
    · rfl
    · simp only [Options.ofArguments, delay?_eq_some_iff.mpr isDelay]

/-- What makes no sense is answered by the usage line alone. -/
theorem ofArguments_eq_error {arguments : List String} {error : StartError}
    (failed : Options.ofArguments arguments = .error error) : error = .usage := by
  rcases arguments with _ | ⟨path, _ | ⟨text, more⟩⟩
  · exact (Except.error.inj failed).symm
  · cases failed
  · simp only [Options.ofArguments] at failed
    split at failed
    · cases failed
    · exact (Except.error.inj failed).symm

theorem ofArguments_eq_usage {arguments : List String}
    (senseless : ∀ options, ¬ Understands arguments options) :
    Options.ofArguments arguments = .error .usage := by
  cases outcome : Options.ofArguments arguments with
  | ok options => exact absurd (ofArguments_eq_ok_iff.mp outcome) (senseless options)
  | error error => rw [ofArguments_eq_error outcome]

/-! ## Reports -/

namespace StartError

theorem exit_unreadable (path : String) (failure : ReadFailure) :
    (unreadable path failure).exit =
      ⟨1, "", "Could not read program " ++ path ++ ": " ++ failure.description ++
        " (os error " ++ toString failure.code ++ ")\n"⟩ := by
  have words : ∀ text : String, text ++ ")" ++ "\n" = text ++ ")\n" := by
    intro text
    rw [String.append_assoc]
    rfl
  exact congrArg (Exit.mk 1 "") (words _)

theorem exit_tooLarge (size : Nat) :
    (refused (.tooLarge size 3584)).exit =
      ⟨1, "", "program is too large (" ++ toString size ++
        " bytes), at most 3584 bytes fit into memory\n"⟩ := by
  have words : ∀ text : String,
      text ++ " bytes), at most " ++ toString 3584 ++ " bytes fit into memory" ++ "\n" =
        text ++ " bytes), at most 3584 bytes fit into memory\n" := by
    intro text
    rw [String.append_assoc, String.append_assoc, String.append_assoc]
    rfl
  exact congrArg (Exit.mk 1 "") (words _)

end StartError

/-! ## Starts -/

namespace Playback

/-- A start that ends at once: with exit code one, nothing on the standard output, and this
report on the standard error. -/
def Refuses (outcome : Except StartError (Options × Playback)) (report : String) : Prop :=
  ∃ error, outcome = .error error ∧ error.exit = ⟨1, "", report⟩

variable {arguments : List String} {files : String → Except ReadFailure (List UInt8)}
  {options : Options}

theorem start_of_senseless (senseless : ∀ options, ¬ Understands arguments options) :
    start arguments files = .error .usage := by
  rw [start, startReading, ofArguments_eq_usage senseless]
  rfl

theorem start_of_unreadable (understood : Understands arguments options) {failure : ReadFailure}
    (unreadable : files options.path = .error failure) :
    start arguments files = .error (.unreadable options.path failure) := by
  rw [start_eq_map (ofArguments_eq_ok_iff.mpr understood), unreadable]
  rfl

theorem start_of_large (understood : Understands arguments options) {program : List UInt8}
    (readable : files options.path = .ok program) (large : 3584 < program.length) :
    start arguments files = .error (.refused (.tooLarge program.length 3584)) := by
  rw [start_eq_map (ofArguments_eq_ok_iff.mpr understood), readable, ofFile,
    Console.withProgram_eq, if_neg (Nat.not_le.mpr large)]
  rfl

/-- A start looks at the arguments first: unless they are a path or a path and a delay, it
prints the usage line, whatever the files are. Then it looks at the file, and prints why it
cannot be read, or how large it is if it is too large. Each of these lines goes to the standard
error, with exit code one and nothing on the standard output. Any other start runs a fresh chip
with the program of the file in its memory. Arguments behind the delay make no difference. -/
theorem start_by_precedence (arguments : List String)
    (files : String → Except ReadFailure (List UInt8)) :
    let outcome := start arguments files
    ((∀ options, ¬ Understands arguments options) →
      Refuses outcome "Usage: chip8_terminal <path-to-program> [cycle-delay-ms]\n") ∧
    (∀ options, Understands arguments options →
      (∀ failure, files options.path = .error failure →
        Refuses outcome ("Could not read program " ++ options.path ++ ": " ++
          failure.description ++ " (os error " ++ toString failure.code ++ ")\n")) ∧
      ∀ program, files options.path = .ok program →
        (3584 < program.length →
          Refuses outcome ("program is too large (" ++ toString program.length ++
            " bytes), at most 3584 bytes fit into memory\n")) ∧
        (program.length ≤ 3584 →
          let chip := (Console.create.load program).console
          Console.create.Overlaid [program] chip ∧
            ∃ playback, outcome = .ok (options, playback) ∧ playback.Runs chip)) ∧
    ∀ path text more, arguments = path :: text :: more →
      outcome = start [path, text] files := by
  refine ⟨?_, ?_, ?_⟩
  · intro senseless
    exact ⟨.usage, start_of_senseless senseless, rfl⟩
  · intro options understood
    refine ⟨?_, ?_⟩
    · intro failure unreadable
      exact ⟨_, start_of_unreadable understood unreadable, StartError.exit_unreadable _ _⟩
    · intro program readable
      refine ⟨?_, ?_⟩
      · intro large
        exact ⟨_, start_of_large understood readable large, StartError.exit_tooLarge _⟩
      · intro fits
        exact ⟨Console.create.overlaid_load program, _,
          start_eq_ok (ofArguments_eq_ok_iff.mpr understood) readable fits, runs_load program⟩
  · rintro path text more rfl
    rfl

/-- One file has a byte more than fits, and another one has a program that draws a zero. -/
def bigAndZero : String → Except ReadFailure (List UInt8)
  | "big.ch8" => .ok (List.replicate 3585 0)
  | "zero.ch8" => .ok failingBehindDraw
  | _ => .error (.ofCode 2 "")

/-- A delay that is one too large is found before a file that is too large, and the largest
delay is read behind a plus sign and a zero. A program that fits is run, and prints its zero. -/
theorem limits_of_arguments :
    Refuses (start ["big.ch8", "18446744073709551616"] bigAndZero)
      "Usage: chip8_terminal <path-to-program> [cycle-delay-ms]\n" ∧
    Refuses (start ["big.ch8", "+018446744073709551615", "-1"] bigAndZero)
      "program is too large (3585 bytes), at most 3584 bytes fit into memory\n" ∧
    Refuses (start ["absent.ch8"] bigAndZero)
      "Could not read program absent.ch8: No such file or directory (os error 2)\n" ∧
    ∃ playback, start ["zero.ch8", "+5"] bigAndZero = .ok (⟨"zero.ch8", 5⟩, playback) ∧
      ∃ schedule current, operationsOf schedule = [.cycle 0, .cycle 0] ∧
        playback.run? schedule = some current ∧ current.output = zeroFrame ++ "\n" := by
  refine ⟨?_, ?_, ?_, ?_⟩
  · apply (start_by_precedence ["big.ch8", "18446744073709551616"] bigAndZero).1
    intro options understood
    have none : delay? "18446744073709551616" = none := by decide +kernel
    cases understood with
    | delay _ isDelay _ => exact delay?_eq_none_iff.mp none _ isDelay
  · have some : delay? "+018446744073709551615" = some 18446744073709551615 := by decide +kernel
    have understood : Understands ["big.ch8", "+018446744073709551615", "-1"]
        ⟨"big.ch8", 18446744073709551615⟩ :=
      .delay "big.ch8" (delay?_eq_some_iff.mp some) ["-1"]
    have size : (List.replicate 3585 (0 : UInt8)).length = 3585 := List.length_replicate
    have large := (((start_by_precedence _ bigAndZero).2.1 _ understood).2 _ rfl).1
    rw [size] at large
    exact large (by decide)
  · exact ((start_by_precedence ["absent.ch8"] bigAndZero).2.1 _ (.path "absent.ch8")).1 _ rfl
  · have some : delay? "+5" = some 5 := by decide +kernel
    have understood : Understands ["zero.ch8", "+5"] ⟨"zero.ch8", 5⟩ :=
      .delay "zero.ch8" (delay?_eq_some_iff.mp some) []
    obtain ⟨-, playback, started, runs⟩ :=
      (((start_by_precedence _ bigAndZero).2.1 _ understood).2 failingBehindDraw rfl).2 (by decide)
    have later : ((Console.create.load failingBehindDraw).console.perform
        (.cycle 0)).console.machine.fault = none := by
      rw [Console.perform, (Console.cycle_pointing rfl).1]
      rfl
    have stops : (Console.create.load failingBehindDraw).console.StopsAtFault
        [.cycle 0, .cycle 0] :=
      Console.everyCycle_cons.mpr ⟨fun _ _ => rfl,
        Console.everyCycle_cons.mpr ⟨fun _ _ => later, Console.everyCycle_nil⟩⟩
    obtain ⟨schedule, current, does, ran, output⟩ :=
      runs.plays [.cycle 0, .cycle 0] (by decide) stops
    refine ⟨playback, started, schedule, current, does, ran, ?_⟩
    rw [output, Console.drawings_zero rfl, lines_singleton]

end Playback

end Chip8.Terminal
