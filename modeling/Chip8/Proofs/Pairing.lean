import Chip8.ReturnStack

/-! # Pushes and pops in pairs

A sequence of pushes and pops of a return stack, judged by the places of its steps alone: a
pop belongs to the latest push before it that no pop in between belongs to. From the empty
stack on, a pop yields what the push of its pair has pushed. A pop without a push leaves one
warning and nothing that a later push would have to make up for, so the warnings count how
far pops were ever ahead of pushes.
-/

namespace Chip8.ReturnStack

inductive Step where
  | push (address : UInt16)
  | pop
  deriving DecidableEq, Repr

def Step.pushed? : Step → Option UInt16
  | .push address => some address
  | .pop => none

def apply (stack : ReturnStack) : Step → ReturnStack
  | .push address => stack.push address
  | .pop => stack.pop.rest

def noticesOf (stack : ReturnStack) : Step → List Notice
  | .push _ => []
  | .pop => stack.pop.notices

def after (stack : ReturnStack) (steps : List Step) : ReturnStack :=
  steps.foldl apply stack

def log (stack : ReturnStack) : List Step → List Notice
  | [] => []
  | step :: rest => stack.noticesOf step ++ (stack.apply step).log rest

theorem newestFirst_pop_rest (stack : ReturnStack) :
    stack.pop.rest.newestFirst = stack.newestFirst.tail := by
  unfold pop
  cases found : stack.newestFirst <;> rfl

theorem after_append (stack : ReturnStack) (first second : List Step) :
    stack.after (first ++ second) = (stack.after first).after second :=
  List.foldl_append

/-! ## Pairs of places -/

def pushedAt? (steps : List Step) (place : Nat) : Option UInt16 :=
  steps[place]?.bind Step.pushed?

def isOpen (steps : List Step) (taken : List Nat) (place : Nat) : Bool :=
  (pushedAt? steps place).isSome && decide (place ∉ taken)

/-- The latest push before a place that no pop has taken. -/
def latestOpen? (steps : List Step) (taken : List Nat) (place : Nat) : Option Nat :=
  (List.range place).reverse.find? (isOpen steps taken)

/-- The pushes that the pops before a place have taken. In its turn each of these pops has
taken the latest push before it that none had taken before. -/
def taken (steps : List Step) : Nat → List Nat
  | 0 => []
  | place + 1 =>
      if steps[place]? = some .pop then
        (latestOpen? steps (taken steps place) place).toList ++ taken steps place
      else
        taken steps place

/-- The push that makes a pair with a pop at a place. -/
def partner? (steps : List Step) (place : Nat) : Option Nat :=
  latestOpen? steps (taken steps place) place

def lastOpen? (steps : List Step) : Option Nat :=
  latestOpen? steps (taken steps steps.length) steps.length

/-- The pushes before a place that no pop before it has taken, the latest first. -/
def openBefore (steps : List Step) (place : Nat) : List Nat :=
  (List.range place).reverse.filter (isOpen steps (taken steps place))

variable {steps : List Step} {place : Nat}

theorem partner?_eq_head? : partner? steps place = (openBefore steps place).head? :=
  List.head?_filter.symm

theorem lt_of_mem_taken {push : Nat} (isTaken : push ∈ taken steps place) : push < place := by
  induction place with
  | zero => cases isTaken
  | succ place ih =>
      rw [taken] at isTaken
      split at isTaken
      · rcases List.mem_append.mp isTaken with now | earlier
        · have listed := List.mem_of_find?_eq_some (Option.mem_toList.mp now)
          rw [List.mem_reverse, List.mem_range] at listed
          exact Nat.lt_succ_of_lt listed
        · exact Nat.lt_succ_of_lt (ih earlier)
      · exact Nat.lt_succ_of_lt (ih isTaken)

theorem nodup_openBefore : (openBefore steps place).Nodup :=
  (List.pairwise_reverse.mpr (List.nodup_range.imp Ne.symm)).filter _

theorem pushedAt?_of_mem_openBefore {push : Nat} (listed : push ∈ openBefore steps place) :
    ∃ address, pushedAt? steps push = some address := by
  have unpaired := (List.mem_filter.mp listed).2
  rw [isOpen, Bool.and_eq_true] at unpaired
  exact Option.isSome_iff_exists.mp unpaired.1

theorem openBefore_push {address : UInt16} (here : steps[place]? = some (.push address)) :
    openBefore steps (place + 1) = place :: openBefore steps place := by
  have same : taken steps (place + 1) = taken steps place := by simp [taken, here]
  have isPush : isOpen steps (taken steps place) place = true := by
    simpa [isOpen, pushedAt?, here, Step.pushed?] using
      fun isTaken => Nat.lt_irrefl place (lt_of_mem_taken isTaken)
  rw [openBefore, same, List.range_succ, List.reverse_append, List.reverse_singleton,
    List.singleton_append, List.filter_cons_of_pos isPush]
  rfl

/-- A pop closes the latest open push, if there is one. -/
theorem openBefore_pop (here : steps[place]? = some .pop) :
    openBefore steps (place + 1) = (openBefore steps place).tail := by
  have grown : taken steps (place + 1) =
      (openBefore steps place).head?.toList ++ taken steps place := by
    rw [← partner?_eq_head?, taken, if_pos here]
    rfl
  have noPush : isOpen steps (taken steps (place + 1)) place = false := by
    simp [isOpen, pushedAt?, here, Step.pushed?]
  have thinned : openBefore steps (place + 1) =
      (openBefore steps place).filter fun push =>
        decide (push ∉ (openBefore steps place).head?.toList) := by
    rw [openBefore, List.range_succ, List.reverse_append, List.reverse_singleton,
      List.singleton_append, List.filter_cons_of_neg (by simp [noPush]), openBefore,
      List.filter_filter, grown]
    apply List.filter_congr
    intro push _
    simp only [isOpen, List.mem_append, not_or, Bool.decide_and]
    exact Bool.and_left_comm _ _ _
  have distinct : (openBefore steps place).Nodup := nodup_openBefore
  rw [thinned]
  cases unpaired : openBefore steps place with
  | nil => rfl
  | cons latest rest =>
      rw [unpaired, List.nodup_cons] at distinct
      simp only [List.head?_cons, Option.toList_some, List.mem_singleton, List.tail_cons,
        decide_not]
      rw [List.filter_cons_of_neg (by simp), List.filter_eq_self]
      intro push listed
      simpa using fun same : push = latest => distinct.1 (same ▸ listed)

/-! ## The stack holds the open pushes -/

theorem newestFirst_after_take (inside : place ≤ steps.length) :
    (empty.after (steps.take place)).newestFirst =
      (openBefore steps place).filterMap (pushedAt? steps) := by
  induction place with
  | zero => rfl
  | succ place ih =>
      have here : steps[place]? = some steps[place] := List.getElem?_eq_getElem inside
      have earlier := ih (Nat.le_of_succ_le inside)
      have turn : empty.after (steps.take (place + 1)) =
          (empty.after (steps.take place)).apply steps[place] := by
        rw [List.take_add_one, here, after_append]
        rfl
      rw [turn]
      cases step : steps[place] with
      | push address =>
          rw [step] at here
          have pushed : pushedAt? steps place = some address := by
            rw [pushedAt?, here]
            rfl
          rw [openBefore_push here, List.filterMap_cons_some pushed, ← earlier]
          rfl
      | pop =>
          rw [step] at here
          rw [openBefore_pop here, apply, newestFirst_pop_rest, earlier]
          cases unpaired : openBefore steps place with
          | nil => rfl
          | cons latest rest =>
              obtain ⟨address, pushed⟩ :=
                pushedAt?_of_mem_openBefore (unpaired ▸ List.mem_cons_self)
              rw [List.filterMap_cons_some pushed]
              rfl

/-- The top of the stack is the push that a pop would belong to now. -/
theorem peek?_after_take (inside : place ≤ steps.length) :
    (empty.after (steps.take place)).peek? =
      (partner? steps place).bind (pushedAt? steps) := by
  rw [peek?, newestFirst_after_take inside, partner?_eq_head?]
  cases unpaired : openBefore steps place with
  | nil => rfl
  | cons latest rest =>
      obtain ⟨address, pushed⟩ := pushedAt?_of_mem_openBefore (unpaired ▸ List.mem_cons_self)
      rw [List.filterMap_cons_some pushed, List.head?_cons, List.head?_cons, Option.bind_some,
        pushed]

theorem pop_of_peek? {stack : ReturnStack} {address : UInt16}
    (top : stack.peek? = some address) : stack.pop.address = address ∧ stack.pop.notices = [] := by
  unfold peek? at top
  unfold pop
  cases found : stack.newestFirst with
  | nil =>
      rw [found] at top
      cases top
  | cons newest rest =>
      rw [found] at top
      exact ⟨Option.some.inj top, rfl⟩

theorem eq_empty_of_peek? {stack : ReturnStack} (top : stack.peek? = none) : stack = empty :=
  ReturnStack.ext (List.head?_eq_none_iff.mp top)

/-! ## Warnings -/

def pushes (steps : List Step) : Nat :=
  steps.countP fun step => step.pushed?.isSome

def pops (steps : List Step) : Nat :=
  steps.count .pop

def warningCount (notices : List Notice) : Nat :=
  notices.countP fun notice => decide (notice.level = .warn)

/-- A stack on which every beginning of its past has left as much as it had to: the depth
makes up for the pops that came too early, of which there are as many as pops were ever ahead
of pushes. -/
structure Balanced (past : List Step) (stack : ReturnStack) (warned : Nat) : Prop where
  depth : (stack.depth : Int) = pushes past - pops past + warned
  ahead : ∀ earlier, earlier <+: past → (pops earlier : Int) - pushes earlier ≤ warned
  farthest : ∃ earlier, earlier <+: past ∧ (pops earlier : Int) - pushes earlier = warned

theorem balanced_empty : Balanced [] empty 0 where
  depth := rfl
  ahead := by
    intro earlier isPrefix
    rw [List.prefix_nil.mp isPrefix]
    exact Int.le_refl 0
  farthest := ⟨[], List.prefix_rfl, rfl⟩

theorem pushes_append (first second : List Step) :
    pushes (first ++ second) = pushes first + pushes second :=
  List.countP_append

theorem pops_append (first second : List Step) :
    pops (first ++ second) = pops first + pops second :=
  List.count_append

theorem warningCount_append (first second : List Notice) :
    warningCount (first ++ second) = warningCount first + warningCount second :=
  List.countP_append

variable {past : List Step} {stack : ReturnStack} {warned : Nat}

theorem Balanced.push (balanced : Balanced past stack warned) (address : UInt16) :
    Balanced (past ++ [.push address]) (stack.push address) warned := by
  have depth := balanced.depth
  have deeper : (stack.push address).depth = stack.depth + 1 := rfl
  have pushed : pushes (past ++ [.push address]) = pushes past + 1 := pushes_append past _
  have popped : pops (past ++ [.push address]) = pops past := pops_append past _
  refine ⟨by omega, ?_, ?_⟩
  · intro earlier isPrefix
    rcases List.prefix_concat_iff.mp isPrefix with rfl | before
    · have := balanced.ahead past List.prefix_rfl
      omega
    · exact balanced.ahead earlier before
  · obtain ⟨earlier, before, far⟩ := balanced.farthest
    exact ⟨earlier, before.trans (List.prefix_append past _), far⟩

/-- A pop takes one address away if there is one, and else the warning makes up for it. -/
theorem depth_pop (stack : ReturnStack) :
    stack.pop.rest.depth + 1 = stack.depth + warningCount stack.pop.notices ∧
      (warningCount stack.pop.notices = 0 ∧ 0 < stack.depth ∨
        warningCount stack.pop.notices = 1 ∧ stack.depth = 0) := by
  unfold pop depth
  cases stack.newestFirst with
  | nil => exact ⟨rfl, .inr ⟨rfl, rfl⟩⟩
  | cons address rest => exact ⟨rfl, .inl ⟨rfl, Nat.succ_pos _⟩⟩

theorem Balanced.pop (balanced : Balanced past stack warned) :
    Balanced (past ++ [.pop]) stack.pop.rest (warned + warningCount stack.pop.notices) := by
  have depth := balanced.depth
  obtain ⟨shallower, cases⟩ := depth_pop stack
  have pushed : pushes (past ++ [.pop]) = pushes past := pushes_append past _
  have popped : pops (past ++ [.pop]) = pops past + 1 := pops_append past _
  refine ⟨by omega, ?_, ?_⟩
  · intro earlier isPrefix
    rcases List.prefix_concat_iff.mp isPrefix with rfl | before
    · omega
    · have := balanced.ahead earlier before
      omega
  · rcases cases with ⟨silent, nonempty⟩ | ⟨warns, isEmpty⟩
    · obtain ⟨earlier, before, far⟩ := balanced.farthest
      exact ⟨earlier, before.trans (List.prefix_append past _), by omega⟩
    · exact ⟨past ++ [.pop], List.prefix_rfl, by omega⟩

theorem Balanced.step (balanced : Balanced past stack warned) (step : Step) :
    Balanced (past ++ [step]) (stack.apply step)
      (warned + warningCount (stack.noticesOf step)) := by
  cases step with
  | push address => exact balanced.push address
  | pop => exact balanced.pop

theorem Balanced.run (balanced : Balanced past stack warned) (steps : List Step) :
    Balanced (past ++ steps) (stack.after steps) (warned + warningCount (stack.log steps)) := by
  induction steps generalizing past stack warned with
  | nil =>
      rw [List.append_nil]
      exact balanced
  | cons step rest ih =>
      rw [log, warningCount_append, ← Nat.add_assoc, List.append_cons]
      exact ih (balanced.step step)

theorem isEmpty_iff (stack : ReturnStack) : stack.isEmpty = true ↔ stack.depth = 0 := by
  rw [isEmpty, List.isEmpty_iff, depth, List.length_eq_zero_iff]

/-- Every pop of a sequence yields the address of the push that it makes a pair with and no
warning; a pop without such a push finds the stack empty, yields zero with one warning and
leaves it empty. There are as many warnings as pops were ever ahead of pushes in a beginning
of the sequence, the depth at the end is what remains when they are made up for, and on top
of the stack lies the last push without a pop. -/
theorem pops_answer_their_pushes (steps : List Step) :
    let stack := empty.after steps
    let warned := warningCount (empty.log steps)
    (∀ place, steps[place]? = some .pop →
      let found := empty.after (steps.take place)
      (∀ push, partner? steps place = some push →
        pushedAt? steps push = some found.pop.address ∧ found.pop.notices = []) ∧
      (partner? steps place = none →
        found = empty ∧ found.pop = ⟨0, empty, [.emptyReturn]⟩)) ∧
    (∀ earlier, earlier <+: steps → (pops earlier : Int) - pushes earlier ≤ warned) ∧
    (∃ earlier, earlier <+: steps ∧ (pops earlier : Int) - pushes earlier = warned) ∧
    (stack.depth : Int) = pushes steps - pops steps + warned ∧
    (stack.isEmpty = true ↔ (pushes steps : Int) - pops steps + warned = 0) ∧
    stack.peek? = (lastOpen? steps).bind (pushedAt? steps) := by
  intro stack warned
  have balanced : Balanced steps stack warned := by
    have run := balanced_empty.run steps
    rwa [List.nil_append, Nat.zero_add] at run
  have top : stack.peek? = (lastOpen? steps).bind (pushedAt? steps) := by
    have atEnd := peek?_after_take (Nat.le_refl steps.length)
    rwa [List.take_length] at atEnd
  refine ⟨?_, balanced.ahead, balanced.farthest, balanced.depth, ?_, top⟩
  · intro place isPop found
    have inside : place ≤ steps.length := Nat.le_of_lt (List.getElem?_eq_some_iff.mp isPop).1
    have top : found.peek? = (partner? steps place).bind (pushedAt? steps) :=
      peek?_after_take inside
    constructor
    · intro push paired
      have listed : push ∈ openBefore steps place := by
        rw [partner?_eq_head?] at paired
        exact List.mem_of_head? paired
      obtain ⟨address, pushed⟩ := pushedAt?_of_mem_openBefore listed
      rw [paired, Option.bind_some, pushed] at top
      obtain ⟨answer, silent⟩ := pop_of_peek? top
      exact ⟨by rw [pushed, answer], silent⟩
    · intro alone
      rw [alone] at top
      have isEmpty := eq_empty_of_peek? top
      exact ⟨isEmpty, by rw [isEmpty, pop_empty]⟩
  · rw [isEmpty_iff, ← balanced.depth]
    exact Int.natCast_eq_zero.symm

/-- Pops that come too early are not held against the pushes behind them. -/
theorem early_pops_are_forgotten :
    let steps : List Step :=
      [.push 0x202, .pop, .pop, .push 0x300, .push 0x302, .pop, .pop, .pop, .push 0x400]
    (empty.after (steps.take 2)).pop = ⟨0, empty, [.emptyReturn]⟩ ∧
    (empty.after (steps.take 5)).pop.address = 0x302 ∧
    (empty.after (steps.take 6)).pop.address = 0x300 ∧
    warningCount (empty.log steps) = 2 ∧
    (empty.after steps).peek? = some 0x400 := by
  intro steps
  obtain ⟨answers, -, -, depth, -, top⟩ := pops_answer_their_pushes steps
  refine ⟨((answers 2 rfl).2 (by decide)).2, ?_, ?_, ?_, ?_⟩
  · have paired := (answers 5 rfl).1 4 (by decide)
    exact (Option.some.inj paired.1).symm
  · have paired := (answers 6 rfl).1 3 (by decide)
    exact (Option.some.inj paired.1).symm
  · have counts : pushes steps = 4 ∧ pops steps = 5 ∧ (empty.after steps).depth = 1 := by decide
    omega
  · rw [top]
    decide

end Chip8.ReturnStack
