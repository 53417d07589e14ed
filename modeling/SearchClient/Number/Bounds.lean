/-!
# Powers and bounds

Powers of two and ten, and the bounds of the integers of sixty-four bits.
-/

set_option autoImplicit false
set_option relaxedAutoImplicit false

namespace SearchClient

/-- Two to a power. -/
def twoTo (n : Nat) : Nat := Nat.pow 2 n

/-- Ten to a power. -/
def tenTo (n : Nat) : Nat := Nat.pow 10 n

/-- The greatest integer of sixty-four bits without a sign, one less than two to the sixty-fourth
power. -/
def greatestUnsigned : Nat := 18446744073709551615

/-- The least integer of sixty-four bits with a sign. -/
def leastSigned : Int := -9223372036854775808

/-- The greatest integer of sixty-four bits with a sign. -/
def greatestSigned : Int := 9223372036854775807

end SearchClient
