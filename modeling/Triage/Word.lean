/-!
# Machine words

The numbers that fit words of 32 and 64 bits, signed and not.
-/

namespace Triage.Word

def greatest32 : Nat := 0xffffffff

def greatest64 : Nat := 0xffffffffffffffff

def leastInt64 : Int := -0x8000000000000000

def greatestInt64 : Int := 0x7fffffffffffffff

def fitsInt64 (n : Int) : Bool := leastInt64 ≤ n && n ≤ greatestInt64

/-- The number that fits a signed word of 64 bits and is nearest to `n`. -/
def clampInt64 (n : Int) : Int := max leastInt64 (min n greatestInt64)

end Triage.Word
