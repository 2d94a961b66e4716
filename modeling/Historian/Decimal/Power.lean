/-!
Powers of two and of ten, and the bounds of machine words.
-/
namespace Historian

def twoTo (n : Nat) : Nat := Nat.pow 2 n

def tenTo (n : Nat) : Nat := Nat.pow 10 n

@[simp] theorem twoTo_zero : twoTo 0 = 1 := rfl

theorem twoTo_succ (n : Nat) : twoTo (n + 1) = twoTo n * 2 := rfl

@[simp] theorem tenTo_zero : tenTo 0 = 1 := rfl

theorem tenTo_succ (n : Nat) : tenTo (n + 1) = tenTo n * 10 := rfl

/-- The first number that 64 bits do not hold. -/
def wordEnd : Nat := 0x10000000000000000

/-- The first number that 64 bits with a sign do not hold. -/
def signedEnd : Nat := 0x8000000000000000

/-- The first number that 32 bits with a sign do not hold. -/
def signedHalfEnd : Nat := 0x80000000

example : wordEnd = twoTo 64 ∧ signedEnd = twoTo 63 ∧ signedHalfEnd = twoTo 31 := by decide

end Historian
