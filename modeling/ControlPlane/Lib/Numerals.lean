import Mathlib.Algebra.Ring.Nat
import Mathlib.Data.Nat.Init

/-!
# Numerals

The side conditions of numerals, named once, so that every definition with the numeral
uses the same one.
-/
namespace ControlPlane.Lib

instance atLeastTwo_two : Nat.AtLeastTwo 2 := inferInstance

instance atLeastTwo_three : Nat.AtLeastTwo 3 := inferInstance

instance atLeastTwo_five : Nat.AtLeastTwo 5 := inferInstance

instance atLeastTwo_nine : Nat.AtLeastTwo 9 := inferInstance

instance atLeastTwo_ten : Nat.AtLeastTwo 10 := inferInstance

instance atLeastTwo_twenty : Nat.AtLeastTwo 20 := inferInstance

instance atLeastTwo_hundred : Nat.AtLeastTwo 100 := inferInstance

instance neZero_two : NeZero 2 := inferInstance

end ControlPlane.Lib
