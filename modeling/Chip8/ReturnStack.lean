import Chip8.Notice

/-!
# Return stack

The return addresses of the calls under way. The stack has no limit, and a
return without a call is not fatal: it goes to address zero and leaves a notice.
-/

namespace Chip8

@[ext] structure ReturnStack where
  newestFirst : List UInt16
  deriving DecidableEq

structure Popped where
  address : UInt16
  rest : ReturnStack
  notices : List Notice
  deriving DecidableEq

namespace ReturnStack

def empty : ReturnStack :=
  ⟨[]⟩

def toList (stack : ReturnStack) : List UInt16 :=
  stack.newestFirst.reverse

def push (stack : ReturnStack) (address : UInt16) : ReturnStack :=
  ⟨address :: stack.newestFirst⟩

/-- Removes the newest return address; an empty stack yields zero and stays empty. -/
def pop (stack : ReturnStack) : Popped :=
  match stack.newestFirst with
  | [] => ⟨0, empty, [.emptyReturn]⟩
  | address :: rest => ⟨address, ⟨rest⟩, []⟩

def peek? (stack : ReturnStack) : Option UInt16 :=
  stack.newestFirst.head?

def depth (stack : ReturnStack) : Nat :=
  stack.newestFirst.length

def isEmpty (stack : ReturnStack) : Bool :=
  stack.newestFirst.isEmpty

@[simp] theorem toList_empty : empty.toList = [] := rfl

@[simp] theorem toList_push (stack : ReturnStack) (address : UInt16) :
    (stack.push address).toList = stack.toList ++ [address] := by
  simp [toList, push]

@[simp] theorem pop_push (stack : ReturnStack) (address : UInt16) :
    (stack.push address).pop = ⟨address, stack, []⟩ := rfl

@[simp] theorem pop_empty : empty.pop = ⟨0, empty, [.emptyReturn]⟩ := rfl

end ReturnStack

end Chip8
