/-
# The arithmetic of a statistic

Every statistic in this library is a formula in sums, products, quotients, logarithms and one
square root of counts.  The formulas are written once, over the class `Arithmetic`, with every
operation in a fixed order.  Read over the reals they are the identities of the theory; read
over `Float` they are what a machine computes, rounding after each step.
-/

namespace LikelihoodRatio

/-- Numbers with the operations that the statistics use: logarithm and root, the four operations,
comparisons, and constants.  No law is asked for: rounded numbers have few, and what a theorem needs
it assumes. -/
class Arithmetic (α : Type) where
  /-- The number that stands for a whole number. -/
  ofInt : Int → α
  ln : α → α
  sqrt : α → α
  /-- Whether a number is neither infinite nor undefined. -/
  isFinite : α → Bool
  [add : Add α]
  [sub : Sub α]
  [mul : Mul α]
  [div : Div α]
  [neg : Neg α]
  [beq : BEq α]
  [lt : LT α]
  [le : LE α]
  [decidableLT : DecidableLT α]
  [decidableLE : DecidableLE α]
  [ofScientific : OfScientific α]

/-! A type that has operations of its own keeps them, which is why these are looked at last. -/

section Operations

variable {α : Type} [Arithmetic α]

instance (priority := low) Arithmetic.toAdd : Add α := Arithmetic.add

instance (priority := low) Arithmetic.toSub : Sub α := Arithmetic.sub

instance (priority := low) Arithmetic.toMul : Mul α := Arithmetic.mul

instance (priority := low) Arithmetic.toDiv : Div α := Arithmetic.div

instance (priority := low) Arithmetic.toNeg : Neg α := Arithmetic.neg

instance (priority := low) Arithmetic.toBEq : BEq α := Arithmetic.beq

instance (priority := low) Arithmetic.toLT : LT α := Arithmetic.lt

instance (priority := low) Arithmetic.toLE : LE α := Arithmetic.le

instance (priority := low) Arithmetic.toDecidableLT : DecidableLT α := Arithmetic.decidableLT

instance (priority := low) Arithmetic.toDecidableLE : DecidableLE α := Arithmetic.decidableLE

instance (priority := low) Arithmetic.toOfScientific : OfScientific α := Arithmetic.ofScientific

end Operations

/-- Binary64 numbers with the natural logarithm `ln`.  The logarithm is a parameter because the
standard prescribes the rounding of every other operation here, and not of this one. -/
@[reducible]
def binary64 (ln : Float → Float) : Arithmetic Float where
  ofInt := Float.ofInt
  ln := ln
  sqrt := Float.sqrt
  isFinite := Float.isFinite

/-- Binary64 numbers with the machine's own logarithm. -/
instance arithmeticFloat : Arithmetic Float := binary64 Float.log

open Arithmetic

variable {α : Type} [Arithmetic α]

/-- The sum of a list, added up from the left. -/
def leftSum (xs : List α) : α := xs.foldl (· + ·) 0.0

/-- The sum of counts.  Each count is converted before it is added, so that large counts cannot
overflow. -/
def countSum (counts : List Int) : α := leftSum (counts.map ofInt)

def larger (x y : α) : α := if x < y then y else x

end LikelihoodRatio
