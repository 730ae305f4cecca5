/-!
# Powers of ten and words

Powers of ten shift decimal digits.  A word is an integer of 64 bits with a sign.
-/

namespace RecordApi

/-- The number with `n` zeros behind a one. -/
def tenTo (n : Nat) : Nat := Nat.pow 10 n

theorem tenTo_succ (n : Nat) : tenTo (n + 1) = tenTo n * 10 := rfl

theorem tenTo_add (m n : Nat) : tenTo (m + n) = tenTo m * tenTo n := Nat.pow_add 10 m n

theorem tenTo_pos (n : Nat) : 0 < tenTo n := Nat.pow_pos (by decide)

theorem tenTo_mono {m n : Nat} (h : m ≤ n) : tenTo m ≤ tenTo n :=
  Nat.pow_le_pow_right (by decide) h

/-- Words are below this number and not below its negation. -/
def wordLimit : Int := 0x8000000000000000

/-- An integer is a word. -/
def fitsWord (n : Int) : Bool :=
  -wordLimit ≤ n && n < wordLimit

end RecordApi
