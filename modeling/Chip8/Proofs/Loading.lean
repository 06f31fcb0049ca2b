import Chip8.Proofs.Runs

/-! # Loading programs

A program that fits replaces the bytes in whose place it comes to stand and nothing else;
one that is too large is refused and changes nothing. After any sequence of loads a byte
from the program start on is therefore that of the latest accepted program that reaches so
far. Sequences of loads are put together by `Overlaid.trans`.
-/

namespace Chip8

/-! ## Programs on top of each other -/

def loadedByte? (offset : Nat) (program : List UInt8) : Option UInt8 :=
  if program.length ≤ 3584 then program[offset]? else none

/-- The byte at an offset of the latest program that is accepted and longer than the offset. -/
def overlay? (programs : List (List UInt8)) (offset : Nat) : Option UInt8 :=
  programs.reverse.findSome? (loadedByte? offset)

theorem overlay?_singleton (program : List UInt8) (offset : Nat) :
    overlay? [program] offset = loadedByte? offset program := by
  rw [overlay?, List.reverse_singleton, List.findSome?_singleton]

/-- Later programs lie on top. -/
theorem overlay?_append (first second : List (List UInt8)) (offset : Nat) :
    overlay? (first ++ second) offset = (overlay? second offset).or (overlay? first offset) := by
  rw [overlay?, List.reverse_append, List.findSome?_append]
  rfl

def loadResult (program : List UInt8) : Result :=
  if program.length ≤ 3584 then .loaded program.length
  else .refused (.tooLarge program.length 3584)

namespace Console

/-- What a sequence of loads leaves: the programs on top of each other, and nothing else. -/
structure Overlaid (before : Console) (programs : List (List UInt8)) (after : Console) :
    Prop where
  program : ∀ offset < 3584, after.machine.memory.byte (0x200 + offset) =
    (overlay? programs offset).getD (before.machine.memory.byte (0x200 + offset))
  below : ∀ address < 0x200,
    after.machine.memory.byte address = before.machine.memory.byte address
  rest : after = { before with machine.memory := after.machine.memory }

theorem Overlaid.refl (console : Console) : console.Overlaid [] console :=
  ⟨fun _ _ => rfl, fun _ _ => rfl, rfl⟩

theorem Overlaid.trans {before middle after : Console} {first second : List (List UInt8)}
    (early : before.Overlaid first middle) (late : middle.Overlaid second after) :
    before.Overlaid (first ++ second) after where
  program := by
    intro offset inside
    rw [late.program offset inside, early.program offset inside, overlay?_append]
    cases overlay? second offset <;> rfl
  below := by
    intro address under
    rw [late.below address under, early.below address under]
  rest := by
    rw [late.rest, early.rest]

/-! ## One load -/

theorem perform_load_of_large (console : Console) {program : List UInt8}
    (large : 3584 < program.length) :
    console.perform (.load program) = ⟨console, loadResult program, [], none⟩ := by
  rw [loadResult, if_neg (Nat.not_le.mpr large)]
  exact console.load_of_large (Nat.not_le.mpr large)

theorem result_load (console : Console) (program : List UInt8) :
    (console.perform (.load program)).result = loadResult program := by
  by_cases fits : program.length ≤ 3584
  · rw [loadResult, if_pos fits, perform, console.load_of_fits fits]
  · rw [console.perform_load_of_large (Nat.lt_of_not_le fits)]

theorem overlaid_load (console : Console) (program : List UInt8) :
    console.Overlaid [program] (console.perform (.load program)).console := by
  by_cases fits : program.length ≤ 3584
  · have inside : 0x200 + program.length ≤ 4096 := Layout.program_fits fits
    rw [perform, console.load_of_fits fits]
    refine ⟨?_, ?_, rfl⟩
    · intro offset _
      rw [overlay?_singleton, loadedByte?, if_pos fits]
      show (console.machine.memory.store 0x200 program).byte (0x200 + offset) = _
      rw [Memory.byte_store _ inside, Nat.add_sub_cancel_left, List.getD_eq_getElem?_getD]
      by_cases reached : offset < program.length
      · rw [if_pos (by omega), List.getElem?_eq_getElem reached, Option.getD_some,
          Option.getD_some]
      · rw [if_neg (by omega), List.getElem?_eq_none (Nat.le_of_not_lt reached), Option.getD_none]
    · intro address under
      show (console.machine.memory.store 0x200 program).byte address = _
      rw [Memory.byte_store _ inside, if_neg (by omega)]
  · rw [console.perform_load_of_large (Nat.lt_of_not_le fits)]
    refine ⟨?_, fun _ _ => rfl, rfl⟩
    intro offset _
    rw [overlay?_singleton, loadedByte?, if_neg fits, Option.getD_none]

theorem withProgram_eq (program : List UInt8) :
    withProgram program =
      if program.length ≤ 3584 then .ok (create.perform (.load program))
      else .error (.tooLarge program.length 3584) := by
  split
  · rename_i fits
    exact withProgram_of_fits fits
  · rename_i large
    have refused : create.load program =
        ⟨create, .refused (.tooLarge program.length 3584), [], none⟩ := create.load_of_large large
    simp only [withProgram, refused]

/-! ## Sequences of loads -/

theorem overlaid_after (console : Console) (programs : List (List UInt8)) :
    console.Overlaid programs (console.after (programs.map .load)) := by
  induction programs generalizing console with
  | nil => exact .refl console
  | cons program rest ih => exact (console.overlaid_load program).trans (ih _)

theorem results_loads (console : Console) (programs : List (List UInt8)) :
    (console.reports (programs.map .load)).map Report.result = programs.map loadResult := by
  induction programs generalizing console with
  | nil => rfl
  | cons program rest ih =>
      simp only [List.map_cons, reports]
      rw [ih, result_load]

/-- Every load of a sequence is answered by the length of the program or by a refusal, and
a refused one changes and logs nothing. After the sequence memory holds the accepted
programs on top of each other, and all else is as it was. A machine that is made with a
program is a fresh one into which the program has been loaded, and there is none for a
program that is too large. -/
theorem loads_lie_on_top (console : Console) (programs : List (List UInt8)) :
    (console.reports (programs.map .load)).map Report.result = programs.map loadResult ∧
    (∀ (before : Console) (program : List UInt8), 3584 < program.length →
      before.perform (.load program) = ⟨before, loadResult program, [], none⟩) ∧
    console.Overlaid programs (console.after (programs.map .load)) ∧
    ∀ program, withProgram program =
      if program.length ≤ 3584 then .ok (create.perform (.load program))
      else .error (.tooLarge program.length 3584) :=
  ⟨console.results_loads programs, fun before _ => before.perform_load_of_large,
    console.overlaid_after programs, withProgram_eq⟩

/-- A short program over a longer one, and between them one that is a byte too large. -/
def shortOverLong : List (List UInt8) :=
  [[0xAA, 0xBB, 0xCC], List.replicate 3585 0xFF, [0x11]]

theorem short_over_long :
    let after := create.after (shortOverLong.map .load)
    after.machine.memory.byte 0x200 = 0x11 ∧ after.machine.memory.byte 0x202 = 0xCC ∧
    after.machine.memory.byte 0x203 = 0 ∧
    (create.reports (shortOverLong.map .load)).map Report.result =
      [.loaded 3, .refused (.tooLarge 3585 3584), .loaded 1] ∧
    withProgram (List.replicate 3585 0xFF) = .error (.tooLarge 3585 3584) := by
  obtain ⟨results, -, overlaid, made⟩ := create.loads_lie_on_top shortOverLong
  have large : (List.replicate 3585 (0xFF : UInt8)).length = 3585 := List.length_replicate
  have none : ∀ offset, loadedByte? offset (List.replicate 3585 0xFF) = none := by
    intro offset
    rw [loadedByte?, large]
    rfl
  have on : ∀ offset, overlay? shortOverLong offset =
      (loadedByte? offset [0x11]).or (loadedByte? offset [0xAA, 0xBB, 0xCC]) := by
    intro offset
    show ([[0x11], List.replicate 3585 0xFF, [0xAA, 0xBB, 0xCC]] : List (List UInt8)).findSome?
      (loadedByte? offset) = _
    simp only [List.findSome?_cons, none]
    cases loadedByte? offset [0x11] <;> cases loadedByte? offset [0xAA, 0xBB, 0xCC] <;> rfl
  refine ⟨?_, ?_, ?_, ?_, ?_⟩
  · rw [overlaid.program 0 (by decide), on]
    rfl
  · rw [overlaid.program 2 (by decide), on]
    rfl
  · rw [overlaid.program 3 (by decide), on]
    decide +kernel
  · rw [results]
    simp only [shortOverLong, List.map_cons, List.map_nil, loadResult, large]
    rfl
  · rw [made, large]
    rfl

end Console

end Chip8
