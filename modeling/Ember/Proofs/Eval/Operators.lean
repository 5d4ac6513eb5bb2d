import Ember.Eval

/-!
# What operators give

An operator gives an integer or a truth value, or fails; never a function.
-/

namespace Ember

/-- An integer or a truth value. -/
def Value.Plain : Value → Prop
  | .integer _ | .boolean _ => True
  | .function _ => False

variable {operator : String} {v : Value}

theorem integerOperation_plain {a b : Int} (h : integerOperation operator a b = .ok v) :
    v.Plain := by
  unfold integerOperation at h
  split at h
  case h_4 => split at h <;> cases h; trivial
  all_goals cases h; try trivial

theorem binaryOperation_plain {left right : Option Value}
    (h : binaryOperation operator left right = .ok v) : v.Plain := by
  unfold binaryOperation at h
  split at h
  · exact integerOperation_plain h
  · split at h <;> cases h <;> trivial
  · cases h

theorem unaryOperation_plain {operand : Option Value}
    (h : unaryOperation operator operand = .ok v) : v.Plain := by
  unfold unaryOperation at h
  split at h
  · cases h
    trivial
  · split at h <;> cases h
    trivial
  · cases h

end Ember
