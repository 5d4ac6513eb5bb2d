import Ember.Depth
import Mathlib.Data.List.ReduceOption

/-!
# Nested limits

Work that asks for limits is put together from blocks, one inside the other and one after the
other, and may fail anywhere (`Plan`). There is one limit in force. A block that wants a higher
one puts that in force and puts the one from before back; any other block leaves it alone. It is
as if every block had a limit of its own, the greatest of the limit at the start and those wanted
by itself and the blocks around (`Plan.comesTo_run`). `DepthLimits` goes through the same limits
(`DepthLimits.enterAll_eq`, `DepthLimits.leaveAll_eq`).
-/

namespace Ember

/-! ## Limits in force -/

/-- The greatest of a limit and those that are wanted. -/
def inForce (start : Int) (wanted : List (Option Int)) : Int :=
  wanted.reduceOption.foldl max start

/-- A limit is wanted that is above the present one and too large. -/
def Refused (present : Int) (wanted : List (Option Int)) : Prop :=
  ∃ limit ∈ wanted.reduceOption, present < limit ∧ maxDepthLimit < limit

instance (present : Int) (wanted : List (Option Int)) : Decidable (Refused present wanted) :=
  inferInstanceAs (Decidable (∃ limit ∈ wanted.reduceOption, _))

section

variable {start limit : Int} {wanted : Option Int} {more : List (Option Int)}

@[simp] theorem inForce_nil (start : Int) : inForce start [] = start := rfl

@[simp] theorem inForce_none : inForce start [none] = start := rfl

@[simp] theorem inForce_some : inForce start [some limit] = max start limit := rfl

/-- Limits that are wanted later count from the one in force by then. -/
theorem inForce_append (start : Int) (before after : List (Option Int)) :
    inForce start (before ++ after) = inForce (inForce start before) after := by
  rw [inForce, List.reduceOption_append, List.foldl_append, inForce, inForce]

theorem inForce_cons (start : Int) (wanted : Option Int) (more : List (Option Int)) :
    inForce start (wanted :: more) = inForce (inForce start [wanted]) more :=
  inForce_append start [wanted] more

@[simp] theorem not_refused_nil : ¬ Refused start [] := nofun

@[simp] theorem not_refused_none : ¬ Refused start [none] := nofun

/-- A limit is refused if it is above the present one and too large. -/
theorem refused_some : Refused start [some limit] ↔ start < limit ∧ maxDepthLimit < limit := by
  simp [Refused, List.reduceOption]

/-- One of several limits is refused if the first is, or one of the others when the first is in
force. -/
theorem refused_cons : Refused start (wanted :: more) ↔
    Refused start [wanted] ∨ Refused (inForce start [wanted]) more := by
  cases wanted with
  | none => simp [Refused, List.reduceOption_cons_of_none]
  | some first =>
    rw [refused_some, inForce_some]
    simp only [Refused, List.reduceOption_cons_of_some, List.mem_cons, exists_eq_or_imp]
    constructor
    · rintro (hfirst | ⟨limit, hl, hs, hm⟩)
      · exact .inl hfirst
      · by_cases hlt : first < limit
        · exact .inr ⟨limit, hl, by omega, hm⟩
        · -- the first limit is above one that is too large
          exact .inl (by omega)
    · rintro (hfirst | ⟨limit, hl, hs, hm⟩)
      · exact .inl hfirst
      · exact .inr ⟨limit, hl, by omega, hm⟩

end

/-! ## Limits to go back to -/

namespace DepthLimits

variable {d : DepthLimits}

/-- A request is refused, or it puts the limit in force and remembers the one from before. -/
theorem enter_eq (d : DepthLimits) (wanted : Option Int) :
    d.enter wanted = if Refused d.present [wanted] then .error .depthLimitTooLarge
      else .ok { present := inForce d.present [wanted], earlier := d.present :: d.earlier } := by
  cases wanted with
  | none => simp [enter]
  | some limit =>
    unfold enter
    simp only [refused_some, inForce_some]
    by_cases hlt : d.present < limit
    · rw [if_pos hlt, Int.max_eq_right (Int.le_of_lt hlt)]
    · rw [if_neg hlt, if_neg fun hall => Int.lt_irrefl _ hall.1, if_neg fun hall => hlt hall.1,
        Int.max_eq_left (Int.not_lt.1 hlt)]

/-- Requests are made one inside the other. -/
theorem enterAll_cons (d : DepthLimits) (wanted : Option Int) (more : List (Option Int)) :
    d.enterAll (wanted :: more) = (d.enter wanted).bind fun d' =>
      (d'.enterAll more).map fun inner => (d'.present :: inner.1, inner.2) := by
  rw [enterAll]
  cases d.enter wanted with
  | error fault => rfl
  | ok d' =>
    change d'.enterAll more >>= _ = (d'.enterAll more).map _
    cases d'.enterAll more <;> rfl

/-- **The limits of requests one inside the other**, and those to go back to. -/
theorem enterAll_eq (d : DepthLimits) (wanted : List (Option Int)) :
    d.enterAll wanted = if Refused d.present wanted then .error .depthLimitTooLarge
      else .ok ((List.range wanted.length).map fun k => inForce d.present (wanted.take (k + 1)),
        { present := inForce d.present wanted
          earlier := ((List.range wanted.length).reverse.map fun k =>
            inForce d.present (wanted.take k)) ++ d.earlier }) := by
  induction wanted generalizing d with
  | nil => rfl
  | cons first more ih =>
    rw [enterAll_cons, enter_eq]
    by_cases hfirst : Refused d.present [first]
    · rw [if_pos hfirst, if_pos (refused_cons.2 (.inl hfirst))]
      rfl
    · rw [if_neg hfirst, Except.bind, ih]
      dsimp only
      by_cases hmore : Refused (inForce d.present [first]) more
      · rw [if_pos hmore, if_pos (refused_cons.2 (.inr hmore))]
        rfl
      · rw [if_neg hmore, if_neg fun h => (refused_cons.1 h).elim hfirst hmore]
        have htake : ∀ k, inForce d.present ((first :: more).take (k + 1)) =
            inForce (inForce d.present [first]) (more.take k) := fun k => inForce_cons ..
        rw [List.length_cons, List.range_succ_eq_map, inForce_cons d.present first more]
        simp only [List.map_cons, List.map_map, List.map_reverse, List.reverse_cons,
          List.map_append, List.append_assoc, Function.comp_def, htake]
        rfl

/-- Going back goes through the limits from before. -/
theorem leaveAll_eq {n : Nat} (hn : n ≤ d.earlier.length) : d.leaveAll n = d.earlier.take n := by
  induction n generalizing d with
  | zero => rfl
  | succ n ih =>
    obtain ⟨present, _ | ⟨limit, earlier⟩⟩ := d
    · cases hn
    · exact congrArg (limit :: ·) (ih (Nat.le_of_succ_le_succ hn))

end DepthLimits

/-! ## Work under a limit -/

variable {σ ε α β : Type}

namespace Limited

variable {limit present : Int} {world : σ}

/-- Work in turn stops where the first part fails, with limit and state as they are then. -/
theorem bind_apply (x : Limited σ ε α) (f : α → Limited σ ε β) :
    (x >>= f) limit world = match x limit world with
      | ((.ok a, limit), world) => f a limit world
      | ((.error reason, limit), world) => ((.error reason, limit), world) := by
  change (match x limit world with | ((r, n), w) => ExceptT.bindCont f r n w) = _
  rcases x limit world with ⟨⟨reason | a, n⟩, w⟩ <;> rfl

/-- A handler takes over with the limit and the state of the failure. -/
theorem tryCatch_apply (x : Limited σ ε α) (handler : Fault ⊕ ε → Limited σ ε α) :
    tryCatch x handler limit world = match x limit world with
      | ((.ok a, limit), world) => ((.ok a, limit), world)
      | ((.error reason, limit), world) => handler reason limit world := by
  change tryCatch (fun _ _ => x limit world : Limited σ ε α) handler limit world = _
  rcases x limit world with ⟨⟨reason | a, n⟩, w⟩ <;> rfl

/-- What is done at last is done also after a failure, and can fail itself. -/
theorem tryFinally_apply (x : Limited σ ε α) (last : Limited σ ε Unit) :
    tryFinally x last limit world = match x limit world with
      | ((r, limit), world) => match last limit world with
        | ((.ok (), limit), world) => ((r, limit), world)
        | ((.error reason, limit), world) => ((.error reason, limit), world) := by
  change tryFinally (fun _ _ => x limit world : Limited σ ε α) last limit world = _
  rcases x limit world with ⟨⟨reason | a, n⟩, w⟩
  · change (tryFinally (fun _ _ => ((.error reason, n), w)) (fun _ _ => last n w) :
      Limited σ ε α) limit world = _
    dsimp only
    rcases last n w with ⟨⟨reason' | ⟨⟩, n'⟩, w'⟩ <;> rfl
  · change (tryFinally (fun _ _ => ((.ok a, n), w)) (fun _ _ => last n w) :
      Limited σ ε α) limit world = _
    dsimp only
    rcases last n w with ⟨⟨reason' | ⟨⟩, n'⟩, w'⟩ <;> rfl

theorem putLimit_apply : (putLimit limit : Limited σ ε Unit) present world =
    if maxDepthLimit < limit then ((.error (.inl .depthLimitTooLarge), present), world)
    else ((.ok (), limit), world) := by
  unfold putLimit
  split <;> rfl

/-- A limit that is not above the one in force changes nothing. -/
theorem withLimit_some_apply (work : Limited σ ε α) :
    withLimit (some limit) work present world =
      if limit ≤ present then work present world
      else (do
        putLimit limit
        tryFinally work (putLimit present) : Limited σ ε α) present world := by
  change (if limit ≤ present then work else _ : Limited σ ε α) present world = _
  split <;> rfl

/-- The work comes to an outcome at a limit, and leaves the limit as it was. -/
def ComesTo (work : Limited σ ε Unit) (limit : Int)
    (outcome : σ → Except (Fault ⊕ ε) Unit × σ) : Prop :=
  ∀ world, work limit world = (((outcome world).1, limit), (outcome world).2)

variable {work : Limited σ ε Unit} {outcome : σ → Except (Fault ⊕ ε) Unit × σ}

/-- **A block puts back the limit from before**, by one of its two exits: work that keeps the limit
of the block is done at the greater of the two limits, if that is not refused. -/
theorem ComesTo.withLimit {wanted : Option Int}
    (hw : work.ComesTo (inForce present [wanted]) outcome) :
    (withLimit wanted work).ComesTo present fun world =>
      if Refused present [wanted] then (.error (.inl .depthLimitTooLarge), world)
      else outcome world := by
  intro world
  cases wanted with
  | none => exact (hw world).trans (by simp only [inForce_none, if_neg not_refused_none])
  | some limit =>
    rw [inForce_some] at hw
    rw [withLimit_some_apply]
    simp only [refused_some]
    by_cases hle : limit ≤ present
    · -- nothing is put in force, and nothing put back
      rw [if_pos hle, if_neg fun hall => Int.not_le.2 hall.1 hle]
      rw [Int.max_eq_left hle] at hw
      exact hw world
    · have hlt : present < limit := Int.not_le.1 hle
      rw [if_neg hle, bind_apply, putLimit_apply]
      by_cases hm : maxDepthLimit < limit
      · rw [if_pos hm, if_pos ⟨hlt, hm⟩]
      · -- the limit from before is lower, and so is not refused
        have hback : ¬ maxDepthLimit < present := by omega
        rw [Int.max_eq_right (Int.le_of_lt hlt)] at hw
        rw [if_neg hm, if_neg fun hall => hm hall.2]
        simp only [tryFinally_apply, hw world, putLimit_apply, if_neg hback]

end Limited

/-! ## Plans of blocks -/

/-- Work that is put together from blocks. What is done besides may look at the limit in force
and may fail, and a failure may be caught. -/
inductive Plan (σ ε : Type) where
  | act (f : Int → σ → Except (Fault ⊕ ε) Unit × σ)
  | andThen (first second : Plan σ ε)
  | rescue (body : Plan σ ε) (handler : Fault ⊕ ε → Plan σ ε)
  | block (wanted : Option Int) (body : Plan σ ε)

namespace Plan

/-- The work, with one limit in force. -/
def run : Plan σ ε → Limited σ ε Unit
  | act f => fun limit world => (((f limit world).1, limit), (f limit world).2)
  | andThen first second => do
    first.run
    second.run
  | rescue body handler => tryCatch body.run fun reason => (handler reason).run
  | block wanted body => withLimit wanted body.run

/-- What the work comes to if each block has a limit of its own: the greatest of the one at the
start and those wanted by itself and the blocks around, outermost first. -/
def outcome (start : Int) : List (Option Int) → Plan σ ε → σ → Except (Fault ⊕ ε) Unit × σ
  | around, act f, world => f (inForce start around) world
  | around, andThen first second, world =>
    match first.outcome start around world with
    | (.ok (), world) => second.outcome start around world
    | (.error reason, world) => (.error reason, world)
  | around, rescue body handler, world =>
    match body.outcome start around world with
    | (.ok (), world) => (.ok (), world)
    | (.error reason, world) => (handler reason).outcome start around world
  | around, block wanted body, world =>
    if Refused (inForce start around) [wanted] then (.error (.inl .depthLimitTooLarge), world)
    else body.outcome start (around ++ [wanted]) world

/-- Blocks one inside the other, outermost first, and the work in the innermost. -/
def nest (wanted : List (Option Int)) (work : Plan σ ε) : Plan σ ε :=
  wanted.foldr block work

/-- **One limit that is put back is as good as one for each block.** -/
theorem comesTo_run (start : Int) (around : List (Option Int)) (p : Plan σ ε) :
    p.run.ComesTo (inForce start around) (p.outcome start around) := by
  induction p generalizing around with
  | act f => exact fun _ => rfl
  | andThen first second hfirst hsecond =>
    intro world
    rw [run, outcome, Limited.bind_apply, hfirst around world]
    rcases first.outcome start around world with ⟨reason | ⟨⟩, w⟩
    · rfl
    · exact hsecond around w
  | rescue body handler hbody hhandler =>
    intro world
    rw [run, outcome, Limited.tryCatch_apply, hbody around world]
    rcases body.outcome start around world with ⟨reason | ⟨⟩, w⟩
    · exact hhandler reason around w
    · rfl
  | block wanted body hbody =>
    have hblock : body.run.ComesTo (inForce (inForce start around) [wanted])
        (body.outcome start (around ++ [wanted])) :=
      inForce_append start around [wanted] ▸ hbody (around ++ [wanted])
    intro world
    rw [run, outcome]
    exact hblock.withLimit world

/-- Work inside several blocks has the limits of all of them around, unless one is refused. -/
theorem outcome_nest (start : Int) (around wanted : List (Option Int)) (work : Plan σ ε)
    (world : σ) :
    (nest wanted work).outcome start around world =
      if Refused (inForce start around) wanted then (.error (.inl .depthLimitTooLarge), world)
      else work.outcome start (around ++ wanted) world := by
  induction wanted generalizing around with
  | nil => simp [nest]
  | cons first more ih =>
    change (block first (nest more work)).outcome start around world = _
    have hcons : Refused (inForce start around) (first :: more) ↔
        Refused (inForce start around) [first] ∨
          Refused (inForce start (around ++ [first])) more := by
      rw [refused_cons, inForce_append]
    rw [outcome, ih]
    simp only [hcons, List.append_assoc, List.singleton_append]
    by_cases hfirst : Refused (inForce start around) [first]
    · rw [if_pos hfirst, if_pos (.inl hfirst)]
    · simp only [hfirst, false_or, if_false]

end Plan

/-- **Limits are raised and put back exactly.** Whatever work is put together from blocks, and
wherever it fails, it comes to the same as if each block had a limit of its own, and the limit
from the start is in force again behind it. In blocks one inside the other that limit is the
greatest of the one at the start and those wanted, unless one that is above those around is too
large: it is refused. `DepthLimits` gives these limits inside each of the blocks, and on the way
out those from before each. -/
theorem limits_restored (start : Int) :
    (∀ (work : Plan σ ε) (world : σ), work.run start world =
      (((work.outcome start [] world).1, start), (work.outcome start [] world).2)) ∧
    (∀ (wanted : List (Option Int)) (work : Plan σ ε) (world : σ),
      (Plan.nest wanted work).outcome start [] world =
        if Refused start wanted then (.error (.inl .depthLimitTooLarge), world)
        else work.outcome start wanted world) ∧
    ∀ (wanted : List (Option Int)) (earlier : List Int),
      if Refused start wanted then
        (DepthLimits.mk start earlier).enterAll wanted = .error .depthLimitTooLarge
      else ∃ d, (DepthLimits.mk start earlier).enterAll wanted =
          .ok ((List.range wanted.length).map fun k => inForce start (wanted.take (k + 1)), d) ∧
        d.present = inForce start wanted ∧
        d.leaveAll wanted.length =
          (List.range wanted.length).reverse.map fun k => inForce start (wanted.take k) := by
  refine ⟨fun work => work.comesTo_run start [], fun wanted work world =>
    Plan.outcome_nest start [] wanted work world, fun wanted earlier => ?_⟩
  have henter := DepthLimits.enterAll_eq ⟨start, earlier⟩ wanted
  split
  · next hrefused => exact henter.trans (if_pos hrefused)
  · next hrefused =>
    refine ⟨_, henter.trans (if_neg hrefused), rfl, ?_⟩
    rw [DepthLimits.leaveAll_eq (by simp), List.take_left' (by simp)]

/-- Behind a block that was refused inside another, the limit is the one from the start. -/
example :
    let look : Plan (List Int) Empty := .act fun limit seen => (.ok (), seen ++ [limit])
    let work := look.block (some 2147483648) |>.block none |>.block (some 5000)
    (Plan.rescue work fun _ => look).run 1000 [] = ((.ok (), 1000), [1000]) := rfl

end Ember
