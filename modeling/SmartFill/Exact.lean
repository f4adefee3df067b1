import Mathlib.Data.Rat.Floor
import Mathlib.Tactic.Linarith
import SmartFill.Types

namespace SmartFill

-- std::round takes halves away from zero.
def roundHalfAway (q : Rat) : Int := if 0 ≤ q then ⌊q + 1/2⌋ else -⌊-q + 1/2⌋

-- The pixel code's arithmetic without rounding.
def exactOps : FloatOps Rat where
  zero := 0
  half := 1/2
  one := 1
  ofInt n := n
  add := (· + ·)
  sub := (· - ·)
  mul := (· * ·)
  div := (· / ·)
  floor q := ⌊q⌋
  round := roundHalfAway
  trunc q := if 0 ≤ q then ⌊q⌋ else ⌈q⌉
  ge a b := decide (b ≤ a)

theorem roundHalfAway_pos {q : Rat} (nonneg : 0 ≤ q) : roundHalfAway q = ⌊q + 1/2⌋ := if_pos nonneg

theorem roundHalfAway_le {q : Rat} {n : Int} (nonneg : 0 ≤ q) (bounded : q ≤ n) : roundHalfAway q ≤ n := by
  rw [roundHalfAway_pos nonneg]
  apply Int.lt_add_one_iff.mp
  apply Int.floor_lt.mpr
  push_cast
  linarith

end SmartFill
