import Chip8.Proofs.Decoding
import Chip8.Proofs.Runs

/-! # Calls and returns

A call leaves the stack that it found below its own return address. Nothing but the
matching return reaches down to that address: instructions push on top of it or pop
what was pushed since, and the host does not touch the stack at all. So when the stack
is as deep again as before the call, it is the stack from before the call, and the
program goes on behind the call.
-/

namespace Chip8

/-! ## Stacks below stacks -/

namespace ReturnStack

/-- All of one stack lies at the bottom of another. -/
def Below (base stack : ReturnStack) : Prop :=
  base.toList <+: stack.toList

theorem below_iff_suffix {base stack : ReturnStack} :
    base.Below stack ↔ base.newestFirst <:+ stack.newestFirst :=
  List.reverse_prefix

theorem Below.refl (stack : ReturnStack) : stack.Below stack :=
  List.prefix_rfl

theorem Below.push {base stack : ReturnStack} (below : base.Below stack) (address : UInt16) :
    base.Below (stack.push address) := by
  rw [Below, toList_push]
  exact below.trans (List.prefix_append _ _)

/-- A pop removes an address from above a base, unless the base is all that there is. -/
theorem Below.pop {base stack : ReturnStack} (below : base.Below stack) :
    stack = base ∨ base.Below stack.pop.rest := by
  rw [below_iff_suffix] at below
  cases pushed : stack.newestFirst with
  | nil =>
      left
      rw [pushed, List.suffix_nil] at below
      exact ReturnStack.ext (pushed.trans below.symm)
  | cons address rest =>
      rw [pushed, List.suffix_cons_iff] at below
      rcases below with whole | deeper
      · exact Or.inl (ReturnStack.ext (pushed.trans whole.symm))
      · right
        rw [below_iff_suffix, ReturnStack.pop, pushed]
        exact deeper

theorem depth_lt_of_push_below {base stack : ReturnStack} {address : UInt16}
    (below : (base.push address).Below stack) : base.depth < stack.depth := by
  have longer := (below_iff_suffix.mp below).length_le
  exact longer

end ReturnStack

/-! ## One operation -/

/-- What one operation does to the return stack: nothing, a push, or the pop of a return. -/
inductive Console.StackStep (console : Console) (operation : Operation) : Prop where
  | kept (same : (console.perform operation).console.machine.stack = console.machine.stack)
  | pushed (address : UInt16)
      (grown : (console.perform operation).console.machine.stack =
        console.machine.stack.push address)
  | popped (random : UInt8) (turn : operation = .cycle random) (opcode : Opcode)
      (fetched : console.machine.fetch = .ok opcode) (word : opcode.word = 0x00EE)
      (done : (console.cycle random).result = .done)
      (shrunk : (console.cycle random).console.machine.stack = console.machine.stack.pop.rest)
      (back : (console.cycle random).console.machine.pc = console.machine.stack.pop.address)

theorem Opcode.word_of_goBack {opcode : Opcode} (returns : opcode.instruction = .goBack) :
    opcode.word = 0x00EE := by
  obtain ⟨kind, address⟩ := instruction_eq_iff.mp returns
  rw [word, kind, address]
  rfl

namespace Console

theorem cycle_stackStep (console : Console) (random : UInt8) :
    console.StackStep (.cycle random) := by
  have left : (console.perform (.cycle random)).console.machine =
      (console.machine.cycle random).machine := proceed_machine console _
  cases console.machine.cycled random with
  | alreadyHalted fault stored turn | fetchRefused running past turn
  | instructionRefused running inside reach reached past turn =>
      refine .kept ?_
      rw [left, turn]
      rfl
  | executed running inside fits turn =>
      have spec := Machine.execute_spec fits random
      have stack : (console.perform (.cycle random)).console.machine.stack =
          console.machine.advance.stackAfter console.machine.opcodeAtPc.instruction := by
        rw [left, turn]
        exact spec.stack
      cases decoded : console.machine.opcodeAtPc.instruction with
      | goBack =>
          rw [decoded] at stack spec
          have done : (console.cycle random).result = .done :=
            cycle_done_iff.mpr ⟨running, inside, fits⟩
          have back : (console.cycle random).console.machine.pc =
              console.machine.stack.pop.address := by
            rw [cycle, proceed_machine, turn, decoded]
            exact spec.pc
          exact .popped random rfl _ (Machine.fetch_eq_ok inside) (Opcode.word_of_goBack decoded)
            done stack back
      | call nnn =>
          rw [decoded] at stack
          exact .pushed console.machine.advance.pc stack
      | _ =>
          rw [decoded] at stack
          exact .kept stack

theorem stackStep (console : Console) (operation : Operation) : console.StackStep operation := by
  rcases console.cycle_or_frozen operation with ⟨random, rfl⟩ | ⟨frozen, _⟩
  · exact console.cycle_stackStep random
  · exact .kept frozen.stack

/-! ## Until the return -/

/-- The return from a call: an instruction 00EE that brings back the stack from before the
call and goes on at the address that the call pushed. -/
structure Returns (console : Console) (operation : Operation) (base : ReturnStack)
    (back : UInt16) : Prop where
  instruction : ∃ random opcode, operation = .cycle random ∧
    console.machine.fetch = .ok opcode ∧ opcode.word = 0x00EE ∧
      (console.cycle random).result = .done
  stack : (console.perform operation).console.machine.stack = base
  pc : (console.perform operation).console.machine.pc = back

/-- The address of a call stays where it is until the call returns. -/
theorem below_or_returns {console : Console} {base : ReturnStack} {back : UInt16}
    (below : (base.push back).Below console.machine.stack) (operation : Operation) :
    (base.push back).Below (console.perform operation).console.machine.stack ∨
      console.Returns operation base back := by
  cases console.stackStep operation with
  | kept same =>
      rw [same]
      exact Or.inl below
  | pushed address grown =>
      rw [grown]
      exact Or.inl (below.push address)
  | popped random turn opcode fetched word done shrunk address =>
      subst turn
      rcases below.pop with whole | deeper
      · rw [whole, ReturnStack.pop_push] at shrunk address
        exact Or.inr ⟨⟨random, opcode, rfl, fetched, word, done⟩, shrunk, address⟩
      · left
        show (base.push back).Below (console.cycle random).console.machine.stack
        rw [shrunk]
        exact deeper

/-- As long as the stack is not as shallow again as before a call, the address of the call
and all that was below it stay. -/
theorem after_below {console : Console} {base : ReturnStack} {back : UInt16}
    (below : (base.push back).Below console.machine.stack) (operations : List Operation)
    (under : ∀ earlier, earlier <+: operations →
      (console.after earlier).machine.stack.depth ≠ base.depth) :
    (base.push back).Below (console.after operations).machine.stack := by
  induction operations generalizing console with
  | nil => exact below
  | cons operation rest ih =>
      rcases below_or_returns below operation with still | returned
      · apply ih still
        intro earlier isPrefix
        exact under (operation :: earlier) ((List.prefix_cons_inj operation).mpr isPrefix)
      · have back := under [operation] ((List.prefix_cons_inj operation).mpr List.nil_prefix)
        exact absurd (congrArg ReturnStack.depth returned.stack) back

/-- Calls and returns match. From a successful call on, the stack from before the call lies
below the address behind the call for as long as the depth from before the call is not
reached; the first operation to reach it is the return from that call. -/
theorem returns_match_calls {console : Console} {opcode : Opcode}
    (running : console.machine.fault = none) (fetched : console.machine.fetch = .ok opcode)
    (isCall : opcode.kind = 0x2) (random : UInt8) :
    let base := console.machine.stack
    let called := (console.cycle random).console
    (console.cycle random).result = .done ∧
    ∃ back : UInt16, back.toNat = console.machine.pc.toNat + 2 ∧
      called.machine.stack = base.push back ∧
      ∀ operations, (∀ earlier, earlier <+: operations →
          (called.after earlier).machine.stack.depth ≠ base.depth) →
        base.toList ++ [back] <+: (called.after operations).machine.stack.toList ∧
        ∀ operation,
          (called.after (operations ++ [operation])).machine.stack.depth = base.depth →
          (called.after operations).Returns operation base back := by
  intro base called
  obtain ⟨inside, atPc⟩ := Machine.fetch_eq_ok_iff.mp fetched
  have decoded : console.machine.opcodeAtPc.instruction = .call opcode.address := by
    rw [atPc]
    exact Opcode.instruction_eq_iff.mpr ⟨isCall, rfl⟩
  have fits : console.machine.advance.Fits console.machine.opcodeAtPc.instruction := by
    rw [decoded]
    intro reach reached
    cases reached
  have turn := Machine.cycle_of_fits running inside fits random
  have done : (console.cycle random).result = .done := cycle_done_iff.mpr ⟨running, inside, fits⟩
  have grown : called.machine.stack = base.push console.machine.advance.pc := by
    show (console.cycle random).console.machine.stack = _
    rw [cycle, proceed_machine, turn, decoded]
    rfl
  refine ⟨done, console.machine.advance.pc, Machine.toNat_pc_advance (by omega), grown, ?_⟩
  intro operations under
  have entered : (base.push console.machine.advance.pc).Below called.machine.stack := by
    rw [grown]
    exact .refl _
  have below := after_below entered operations under
  refine ⟨ReturnStack.toList_push base _ ▸ below, ?_⟩
  intro operation shallow
  rw [after_append] at shallow
  rcases below_or_returns below operation with still | returned
  · have deeper := ReturnStack.depth_lt_of_push_below still
    exact absurd shallow (Nat.ne_of_gt deeper)
  · exact returned

def nestedCalls : Console :=
  { create with
    machine := { Machine.fresh with
      memory := Memory.blank.store 0 [0x20, 0x04, 0x00, 0x00, 0x20, 0x08, 0x00, 0xEE, 0x00, 0xEE]
      pc := 0 } }

theorem nested_calls_return :
    nestedCalls.machine.fault = none ∧ nestedCalls.machine.fetch = .ok ⟨2, 0, 0, 4⟩ ∧
    ∃ back : UInt16, back.toNat = 0x002 ∧
      ((nestedCalls.cycle 0).console.after [.cycle 0, .tick, .cycle 0]).Returns (.cycle 0)
        .empty back := by
  have running : nestedCalls.machine.fault = none := by decide +kernel
  have fetched : nestedCalls.machine.fetch = .ok ⟨2, 0, 0, 4⟩ :=
    Machine.fetch_eq_ok_iff.mpr ⟨by decide, by decide +kernel⟩
  obtain ⟨_, back, counted, _, matched⟩ := returns_match_calls running fetched rfl 0
  have under : ∀ earlier, earlier <+: [Operation.cycle 0, .tick, .cycle 0] →
      ((nestedCalls.cycle 0).console.after earlier).machine.stack.depth ≠ 0 := by
    intro earlier isPrefix
    simp only [List.prefix_cons_iff, List.prefix_nil] at isPrefix
    rcases isPrefix with rfl | ⟨_, rfl, rfl | ⟨_, rfl, rfl | ⟨_, rfl, rfl⟩⟩⟩ <;> decide +kernel
  have shallow : ((nestedCalls.cycle 0).console.after
      ([.cycle 0, .tick, .cycle 0] ++ [.cycle 0])).machine.stack.depth = 0 := by
    decide +kernel
  exact ⟨running, fetched, back, counted, (matched _ under).2 _ shallow⟩

end Console

end Chip8
