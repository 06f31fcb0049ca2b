import Chip8.Proofs.Runs

/-! # Bounds on the program counter

The program counter can leave memory only by a skip in its last word, and a call in
that word pushes the first address behind it. These two numbers bound every
reachable program counter and return address, and with them every stored halt.
-/

namespace Chip8

/-! ## The invariant -/

/-- The program counter and the return addresses of a machine are in range, and a halt
that is stored was caused by an access past memory and left the program counter where
the faulting cycle had brought it. -/
structure Machine.Bounded (machine : Machine) : Prop where
  pc : machine.pc.toNat ≤ 0x1002
  returns : ∀ address ∈ machine.stack.toList, 0x002 ≤ address.toNat ∧ address.toNat ≤ 0x1000
  halt : machine.fault = none ∨ ∃ pc address,
    machine.fault = some (.halted pc (.outOfBounds address)) ∧
      pc.toNat ≤ 0x1002 ∧ 0x1000 ≤ address ∧ address ≤ 0xFFFF ∧
      machine.pc.toNat = if 0xFFE < pc.toNat then pc.toNat else pc.toNat + 2

/-- What a cycle adds to the program counter or takes from it does not wrap: the fetch
moves it on by two, a skip by two more, and a repeated instruction moves it back by two. -/
structure Machine.CountsExactly (machine : Machine) : Prop where
  advance : machine.advance.pc.toNat = machine.pc.toNat + 2
  skip : ∀ condition, (machine.advance.skipIf condition).pc.toNat =
    machine.advance.pc.toNat + if condition then 2 else 0
  tryAgain : machine.advance.tryAgain.pc.toNat + 2 = machine.advance.pc.toNat

namespace ReturnStack

theorem address_pop (stack : ReturnStack) : stack.pop.address = stack.peek?.getD 0 := by
  unfold pop peek?
  cases stack.newestFirst with
  | nil => rfl
  | cons address rest => rfl

theorem address_pop_eq_zero_or_mem (stack : ReturnStack) :
    stack.pop.address = 0 ∨ stack.pop.address ∈ stack.toList := by
  unfold pop toList
  split
  · exact Or.inl rfl
  · rename_i address rest pushed
    right
    simp [pushed]

theorem mem_of_mem_pop {stack : ReturnStack} {address : UInt16}
    (kept : address ∈ stack.pop.rest.toList) : address ∈ stack.toList := by
  unfold pop toList at kept
  unfold toList
  split at kept
  · cases kept
  · rename_i newest rest pushed
    rw [List.mem_reverse] at kept ⊢
    rw [pushed]
    exact List.mem_cons_of_mem newest kept

end ReturnStack

namespace Machine

theorem Bounded.of_frozen {before after : Machine} (bounded : before.Bounded)
    (frozen : before.Frozen after) : after.Bounded where
  pc := frozen.pc ▸ bounded.pc
  returns := frozen.stack ▸ bounded.returns
  halt := by
    rw [frozen.fault, frozen.pc]
    exact bounded.halt

theorem fresh_bounded : fresh.Bounded where
  pc := by decide
  returns := by
    intro address pushed
    cases pushed
  halt := Or.inl rfl

/-! ## One instruction -/

theorem toNat_pc_add_two {machine : Machine} (high : machine.pc.toNat ≤ 0x1002) :
    (machine.pc + 2).toNat = machine.pc.toNat + 2 :=
  toNat_pc_advance (by omega)

theorem toNat_pc_sub_two {machine : Machine} (low : 2 ≤ machine.pc.toNat) :
    (machine.pc - 2).toNat = machine.pc.toNat - 2 := by
  have le : (2 : UInt16) ≤ machine.pc := UInt16.le_iff_toNat_le.mpr low
  exact UInt16.toNat_sub_of_le machine.pc 2 le

/-- Wherever an instruction continues, it is at most one word behind memory. -/
theorem toNat_pcAfter_le {machine : Machine} {instruction : Instruction}
    (low : 2 ≤ machine.pc.toNat) (high : machine.pc.toNat ≤ 0x1000)
    (returns : ∀ address ∈ machine.stack.toList, address.toNat ≤ 0x1000)
    (fits : machine.Fits instruction) :
    (machine.pcAfter instruction).toNat ≤ 0x1002 := by
  have onwards : ∀ skip : Bool,
      (if skip then machine.pc + 2 else machine.pc).toNat ≤ 0x1002 := by
    intro skip
    split
    · rw [toNat_pc_add_two (by omega)]
      omega
    · omega
  have absolute : ∀ address : Address, address.word.toNat ≤ 0x1002 := by
    intro address
    rw [Address.toNat_word]
    omega
  cases instruction with
  | goBack =>
      simp only [pcAfter]
      rcases machine.stack.address_pop_eq_zero_or_mem with bottom | pushed
      · rw [bottom]
        decide
      · have := returns _ pushed
        omega
  | jump nnn => exact absolute nnn
  | call nnn => exact absolute nnn
  | jumpOffset nnn =>
      have inside : nnn.val + (machine.registers.get 0).toNat + 1 ≤ 4096 := fits _ rfl
      simp only [pcAfter, UInt16.toNat_ofNat']
      omega
  | awaitPin x =>
      simp only [pcAfter]
      split
      · omega
      · rw [toNat_pc_sub_two low]
        omega
  | _ => exact onwards _

theorem returns_stackAfter {machine : Machine} {instruction : Instruction}
    (low : 0x002 ≤ machine.pc.toNat) (high : machine.pc.toNat ≤ 0x1000)
    (returns : ∀ address ∈ machine.stack.toList,
      0x002 ≤ address.toNat ∧ address.toNat ≤ 0x1000) :
    ∀ address ∈ (machine.stackAfter instruction).toList,
      0x002 ≤ address.toNat ∧ address.toNat ≤ 0x1000 := by
  intro address kept
  cases instruction with
  | goBack => exact returns address (ReturnStack.mem_of_mem_pop kept)
  | call nnn =>
      rw [stackAfter, ReturnStack.toList_push, List.mem_append] at kept
      rcases kept with old | new
      · exact returns address old
      · cases List.mem_singleton.mp new
        exact ⟨low, high⟩
  | _ => exact returns address kept

/-- The reach of an instruction starts at the index or at a sum of an address and a byte. -/
theorem reach_start_le {machine : Machine} {instruction : Instruction} {reach : Reach}
    (reached : machine.reach instruction = some reach) : reach.start ≤ 0xFFFF := by
  have index := machine.index.toNat_lt
  have offset := (machine.registers.get 0).toNat_lt
  cases instruction with
  | jumpOffset nnn =>
      cases reached
      show nnn.val + (machine.registers.get 0).toNat ≤ 0xFFFF
      omega
  | draw x y n | decimal x | save x | restore x =>
      cases reached
      show machine.index.toNat ≤ 0xFFFF
      omega
  | _ => cases reached

/-! ## One cycle -/

theorem Bounded.countsExactly {machine : Machine} (bounded : machine.Bounded) :
    machine.CountsExactly := by
  have low := bounded.pc
  have moved : machine.advance.pc.toNat = machine.pc.toNat + 2 := toNat_pc_add_two low
  refine ⟨moved, ?_, ?_⟩
  · intro condition
    cases condition with
    | false => rfl
    | true => exact toNat_pc_advance (by omega)
  · have back : machine.advance.tryAgain.pc.toNat = machine.advance.pc.toNat - 2 :=
      toNat_pc_sub_two (by omega)
    omega

theorem Bounded.executed {machine : Machine} {random : UInt8} {instruction : Instruction}
    (bounded : machine.Bounded) (running : machine.fault = none)
    (inside : machine.pc.toNat + 2 ≤ 4096) (fits : machine.advance.Fits instruction) :
    (machine.advance.execute random instruction).machine.Bounded := by
  have moved : machine.advance.pc.toNat = machine.pc.toNat + 2 := toNat_pc_advance (by omega)
  have spec := execute_spec fits random
  refine ⟨?_, ?_, ?_⟩
  · rw [spec.pc]
    exact toNat_pcAfter_le (by omega) (by omega)
      (fun address pushed => (bounded.returns address pushed).2) fits
  · rw [spec.stack]
    exact returns_stackAfter (by omega) (by omega) bounded.returns
  · left
    rw [spec.halt]
    exact running

theorem Bounded.cycle {machine : Machine} (bounded : machine.Bounded) (random : UInt8) :
    (machine.cycle random).machine.Bounded := by
  have low := bounded.pc
  cases machine.cycled random with
  | alreadyHalted fault stored turn =>
      rw [turn]
      exact bounded
  | fetchRefused running past turn =>
      rw [turn]
      refine ⟨low, bounded.returns, Or.inr ⟨machine.pc, _, rfl, low, by omega, by omega, ?_⟩⟩
      rw [if_pos (by omega)]
      rfl
  | instructionRefused running inside reach reached past turn =>
      have moved : machine.advance.pc.toNat = machine.pc.toNat + 2 := toNat_pc_advance (by omega)
      have start := reach_start_le reached
      rw [turn]
      refine ⟨?_, bounded.returns, Or.inr ⟨machine.pc, _, rfl, low, by omega, by omega, ?_⟩⟩
      · show machine.advance.pc.toNat ≤ 0x1002
        omega
      · rw [if_neg (by omega)]
        exact moved
  | executed running inside fits turn =>
      rw [turn]
      exact bounded.executed running inside fits

end Machine

/-! ## Whole runs -/

theorem Console.perform_bounded (console : Console) (operation : Operation)
    (bounded : console.machine.Bounded) :
    (console.perform operation).console.machine.Bounded := by
  rcases console.cycle_or_frozen operation with ⟨random, rfl⟩ | ⟨frozen, _⟩
  · show (console.cycle random).console.machine.Bounded
    rw [cycle, proceed_machine]
    exact bounded.cycle random
  · exact bounded.of_frozen frozen

theorem Constructed.bounded {start : Report} (constructed : Constructed start)
    (operations : List Operation) : (start.console.after operations).machine.Bounded := by
  have first : start.console.machine.Bounded :=
    Machine.fresh_bounded.of_frozen constructed.frozen.1
  exact Console.after_induction Console.perform_bounded first operations

/-- Whatever the host does and the program holds, every reachable machine is bounded,
and so its program counter never wraps. -/
theorem bounded_in_every_run {start : Report} (constructed : Constructed start)
    (operations : List Operation) :
    (start.console.after operations).machine.Bounded ∧
      (start.console.after operations).machine.CountsExactly :=
  have bounded := constructed.bounded operations
  ⟨bounded, bounded.countsExactly⟩

/-- A program that calls itself for ever, with the host at work in between. -/
theorem bounded_in_endless_recursion :
    Constructed (Console.create.load [0x22, 0x00]) ∧
      ((Console.create.load [0x22, 0x00]).console.after
        [.cycle 0, .attach, .cycle 7, .setDelay 3, .tick, .cycle 0]).machine.Bounded ∧
      ((Console.create.load [0x22, 0x00]).console.after
        [.cycle 0, .attach, .cycle 7, .setDelay 3, .tick, .cycle 0]).machine.CountsExactly := by
  have constructed : Constructed (Console.create.load [0x22, 0x00]) :=
    .withProgram [0x22, 0x00] _ (Console.withProgram_of_fits (by decide))
  exact ⟨constructed, bounded_in_every_run constructed _⟩

end Chip8
