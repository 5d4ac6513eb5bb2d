import Ember.Fault

/-!
# Nesting limits

A limit on how deeply parsing and evaluation may nest is in force at any time.
A stretch of work can ask for a higher limit; it never gets a lower one, and the
limit from before is in force again when the work is over.

`depthBudget` turns the limit in force into the number of levels that may be
entered. `withLimit` is a stretch of work that asks for a limit, as a program with
one limit does it: the limit is put in force, and put back when the work is over.
-/

namespace Ember

/-- The limits in force: the present one, and those to go back to, latest first. -/
structure DepthLimits where
  present : Int
  earlier : List Int := []
deriving DecidableEq, Repr

namespace DepthLimits

/-- The limit that is in force when nothing asked for another. -/
def standard : DepthLimits := { present := 1000 }

/-- Asks for a limit. One that is absent or not above the present limit changes
nothing; one that is too large is refused. -/
def enter (d : DepthLimits) (wanted : Option Int) : Except Fault DepthLimits :=
  let limit := match wanted with
    | some limit => if d.present < limit then limit else d.present
    | none => d.present
  if d.present < limit ∧ maxDepthLimit < limit then .error .depthLimitTooLarge
  else .ok { present := limit, earlier := d.present :: d.earlier }

/-- Goes back to the limit from before the latest request. -/
def leave (d : DepthLimits) : DepthLimits :=
  match d.earlier with
  | [] => d
  | limit :: earlier => { present := limit, earlier }

/-- Enters one request inside the other. The result lists the limits in force
after each. -/
def enterAll (d : DepthLimits) : List (Option Int) → Except Fault (List Int × DepthLimits)
  | [] => .ok ([], d)
  | wanted :: more => do
    let d ← d.enter wanted
    let (inside, d') ← d.enterAll more
    return (d.present :: inside, d')

/-- Leaves `n` requests, innermost first. The result lists the limits in force
after each. -/
def leaveAll (d : DepthLimits) : Nat → List Int
  | 0 => []
  | n + 1 => d.leave.present :: d.leave.leaveAll n

end DepthLimits

/-- The number of levels that work under the requested limit may nest. -/
def depthBudget (limit : Int) : Except Fault Nat := do
  let inForce ← DepthLimits.standard.enter (some limit)
  return inForce.present.toNat

/-! ## Stretches of work -/

/-- Work that sees the limit in force and may put another in force, may change a state
besides, and fails with a fault or for a reason of its own. Limit and state stay as they are
when it fails. -/
abbrev Limited (σ ε α : Type) := ExceptT (Fault ⊕ ε) (StateT Int (StateM σ)) α

variable {σ ε α : Type}

/-- Puts a limit in force; one that is too large is refused. -/
def putLimit (limit : Int) : Limited σ ε Unit :=
  if maxDepthLimit < limit then throw (.inl .depthLimitTooLarge) else set limit

/-- Does work for which a limit is wanted. A limit that is not above the one in force leaves
that untouched; another is in force during the work, and the one from before is put back when
the work ends or fails. -/
def withLimit (wanted : Option Int) (work : Limited σ ε α) : Limited σ ε α := do
  let previous ← get
  match wanted with
  | none => work
  | some limit =>
    if limit ≤ previous then work
    else
      putLimit limit
      try work finally putLimit previous

end Ember
