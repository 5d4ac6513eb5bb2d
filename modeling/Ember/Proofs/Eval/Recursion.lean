import Ember.Proofs.Eval.Capture

/-!
# Functions that call themselves

A declaration binds a function to a name when the function is made already. In the function the
name stands for the function all the same: it is looked up in the frame of the declaration, which
binds it by then. So a function can call itself as long as that frame does not bind the name to
something else (`declared_function_recurs`).

That holds if the frame had not bound the name before. If it had, the function is made with a
snapshot that binds the name, and there the name goes on standing for what it stood for until
then (`redeclared_function_does_not_recur`).
-/

namespace Ember

namespace Heap

open History

variable {s : History} {f g : FrameId} {x : String} {cs : List Change} {value : Option Value}

/-- An evaluation in a frame that is no snapshot comes only by heaps that changes lead to which
write to no snapshot. -/
theorem evalUntil_unwinds (hs : s.Placed) (hg : s.Live g)
    (stop : Task → FrameId → Heap → Bool) (rounds depth : Nat) (task : Task) :
    ∃ cs, s.Spares cs ∧ (s.run cs).heap = (evalUntil stop rounds depth task g).after s.heap :=
  (evalUntil_along (R := Unwinds) stop rounds depth task g).run s.heap s rfl hs hg

/-! ## Names in a snapshot and in a call -/

/-- A name that is declared behind a capture stands in the snapshot for what it stood for until
then, if the frame had bound it, and otherwise for what it stands for in the frame. -/
theorem History.Owned.get?_capture_declare (hs : s.Owned) (hf : s.Live f)
    (hcs : (s.run [.capture f, .declare f x value]).Spares cs) :
    ((s.run [.capture f, .declare f x value]).run cs).heap.get? s.heap.frames.size x =
      if (s.heap.slot? f x).isSome then s.heap.get? f x
      else ((s.run [.capture f, .declare f x value]).run cs).heap.get? f x := by
  have hspares : (s.step (.capture f)).Spares (.declare f x value :: cs) :=
    ⟨fun t ht => by cases ht; exact (hf.step _).notMem, hcs⟩
  have hget := hs.get?_capture hf hspares x
  have hnone : (Change.declare f x value :: cs).takeWhile (fun c => !c.declares f x) = [] :=
    List.takeWhile_cons_of_neg (by simp [Change.declares])
  rw [hnone] at hget
  refine hget.trans ?_
  cases hx : s.heap.slot? f x with
  | none => rfl
  | some cell =>
    have hslot : (s.step (.capture f)).heap.slot? f x = some cell :=
      (slot?_eq (frame_capture_of_lt hf.lt)).trans hx
    exact (get?_of_slot hslot).trans (get?_of_slot hx).symm

theorem get?_declare_self (h : Heap) (x : String) (value : Option Value)
    (hf : f < h.frames.size) :
    (h.declare f x value).slot? f x = some h.cells.size ∧
      (h.declare f x value).get? f x = some value := by
  have hslot : (h.declare f x value).slot? f x = some h.cells.size :=
    (slot?_declare ..).trans (if_pos ⟨rfl, hf, rfl⟩)
  exact ⟨hslot, by rw [get?_of_slot hslot, content_declare, if_pos rfl]⟩

/-- The changes that make the frame of a call write names in no other frame. -/
theorem entering_unwritten {inner : FrameId} (hf : f ≠ inner) (g : FrameId) (name x : String)
    (bindings : List (String × Option Value)) :
    Unwritten f x (entering inner g name bindings) := by
  refine List.forall_mem_cons.2 ⟨nofun, List.forall_mem_map.2 fun b _ ht => hf ?_⟩
  exact (congrArg Prod.fst (Option.some.inj ht)).symm

/-- In the frame of a call a name that is no parameter stands for what it stands for in the frame
of the function, until it is written there. -/
theorem get?_entering {name : String} {bindings : List (String × Option Value)}
    (hg : g < s.heap.frames.size) (hx : ∀ b ∈ bindings, b.1 ≠ x)
    (hcs : Unwritten s.heap.frames.size x cs) :
    ((s.run (entering s.heap.frames.size g name bindings)).run cs).heap.get?
        s.heap.frames.size x =
      ((s.run (entering s.heap.frames.size g name bindings)).run cs).heap.get? g x := by
  have hnew : (s.step (.enclose g name)).heap.frame s.heap.frames.size =
      { name, outers := s.heap.chain g } := (frame_addFrame ..).trans (if_pos rfl)
  have hold : (s.step (.enclose g name)).heap.frame g = s.heap.frame g := frame_step hg nofun
  have hle := frames_step_le s (.enclose g name)
  have hunwritten : Unwritten s.heap.frames.size x
      (bindings.map (fun b => Change.declare s.heap.frames.size b.1 b.2) ++ cs) := by
    refine unwritten_append.2 ⟨List.forall_mem_map.2 fun b hb ht => hx b hb ?_, hcs⟩
    exact congrArg Prod.snd (Option.some.inj ht)
  rw [entering, run_cons, ← run_append]
  refine get?_run_of_no_slot ?_ (Nat.lt_of_lt_of_le hg hle) ?_ ?_ hunwritten
  · exact lt_frames_enclose s g name
  · rw [slot?, hnew]
    rfl
  · rw [hnew, hold]
    rfl

end Heap

/-- A call with the right number of arguments evaluates the body in the frame that it enters. -/
theorem Run.apply_function {self : Task → FrameId → Run (Option Value)} {span : Option Span}
    {callee : Node} {c : Closure} {args : List (Option Value)} {h : Heap}
    (hlength : c.parameters.length = args.length) :
    Run.apply self span callee (some (.function c)) args h =
      self (.body c.body) (h.enter c.frame ("call:" ++ callee.print) (c.parameters.zip args)).1
        (h.enter c.frame ("call:" ++ callee.print) (c.parameters.zip args)).2 := by
  have hcall : Run.apply self span callee (some (.function c)) args = (do
      let inner ← modifyGet fun h =>
        h.enter c.frame ("call:" ++ callee.print) (c.parameters.zip args)
      self (.body c.body) inner) := if_neg (not_not_intro hlength)
  rw [hcall]
  rfl

/-! ## Declared functions -/

open Heap History

/-- **What a declared function finds under its own name.** A declaration gives a name a function
in a frame that is no snapshot. Whatever happens then, a call of the function evaluates the body
in a frame of its own; until the name is written there, it stands

- for what it had stood for in the frame of the declaration, if that frame had bound it,
- otherwise for what it stands for in that frame, and so for the function itself, as long as the
  name was not written there again.

All evaluations make changes as they are meant here, up to any point where they could stop. -/
theorem declared_function_recurs (past : List Change) {f : FrameId}
    (hf : (initial.run past).Live f) (x : Name) (params : List Name)
    (hx : x.text ∉ params.map Name.text) (body : Node) :
    let s := initial.run past
    let c : Closure := ⟨params.map Name.text, body, s.heap.frames.size⟩
    let t := s.run [.capture f, .declare f x.text (some (.function c))]
    (∀ rounds depth span span', evalTask rounds (depth + 4)
        (.statement (.declaration span x (.function span' params body))) f s.heap =
      .ok (some (.function c)) t.heap) ∧
    (∀ before, t.Spares before → ∀ (callee : Node) (args : List (Option Value)),
      args.length = params.length →
      let u := t.run before
      let inner := u.heap.frames.size
      let v := u.run (entering inner c.frame ("call:" ++ callee.print) (c.parameters.zip args))
      (∀ self span, Run.apply self span callee (some (.function c)) args u.heap =
        self (.body body) inner v.heap) ∧
      v.Live inner ∧
      ∀ since, v.Spares since → Unwritten inner x.text since →
        (v.run since).heap.get? inner x.text =
          (if (s.heap.slot? f x.text).isSome then s.heap.get? f x.text
          else (v.run since).heap.get? f x.text) ∧
        (s.heap.slot? f x.text = none → Unwritten f x.text (before ++ since) →
          (v.run since).heap.get? inner x.text = some (some (.function c)))) ∧
    (∀ changes, t.Spares changes → ∀ g, (t.run changes).Live g →
      ∀ stop rounds depth task, ∃ more, t.Spares (changes ++ more) ∧
        (t.run (changes ++ more)).heap =
          (evalUntil stop rounds depth task g).after (t.run changes).heap) := by
  intro s c t
  have hs : s.Owned := owned_initial.run past
  have ht : t.Owned := hs.run _
  refine ⟨fun rounds depth span span' => rfl, ?_, ?_⟩
  · intro before hbefore callee args hargs u inner v
    have hlength : c.parameters.length = args.length := by rw [hargs, List.length_map]
    have hu : u.Owned := ht.run before
    have hframe : c.frame < u.heap.frames.size :=
      Nat.lt_of_lt_of_le (ht.placed _ (List.mem_cons_self ..)) (frames_run_le t before)
    have hlive : u.Live f := (hf.run _).run before
    refine ⟨fun self span => ?_, entering_live hu.placed .., fun since hsince hinner => ?_⟩
    · rw [Run.apply_function hlength]
      exact congrArg (self (.body body) inner) (entering_run ..).symm
    -- the changes since the declaration, with those that the call makes among them
    let entered := entering inner c.frame ("call:" ++ callee.print) (c.parameters.zip args)
    have hrun : v.run since = t.run (before ++ (entered ++ since)) := by
      rw [run_append, run_append]
    have hspares : t.Spares (before ++ (entered ++ since)) :=
      spares_append.2 ⟨hbefore, spares_append.2 ⟨entering_spares hu.placed .., hsince⟩⟩
    have hparameters : ∀ b ∈ c.parameters.zip args, b.1 ≠ x.text := by
      rintro ⟨name, value⟩ hb rfl
      exact hx (List.of_mem_zip hb).1
    have hget : (v.run since).heap.get? inner x.text =
        if (s.heap.slot? f x.text).isSome then s.heap.get? f x.text
        else (v.run since).heap.get? f x.text := by
      rw [get?_entering hframe hparameters hinner]
      change (v.run since).heap.get? c.frame x.text = _
      rw [hrun]
      exact hs.get?_capture_declare hf hspares
    refine ⟨hget, fun hfree hunwritten => ?_⟩
    obtain ⟨hbefore', hsince'⟩ := unwritten_append.1 hunwritten
    have hentered : Unwritten f x.text entered :=
      entering_unwritten (Nat.ne_of_lt hlive.lt) _ _ _ _
    obtain ⟨hslot, hbound⟩ :=
      get?_declare_self (s.step (.capture f)).heap x.text (some (.function c)) (hf.step _).lt
    calc (v.run since).heap.get? inner x.text
        = (v.run since).heap.get? f x.text := by
          rw [hget, hfree]
          rfl
      _ = t.heap.get? f x.text := by
          rw [hrun]
          exact ht.get?_run_of_slot (hf.run _) hslot hspares
            (unwritten_append.2 ⟨hbefore', unwritten_append.2 ⟨hentered, hsince'⟩⟩)
      _ = some (some (.function c)) := hbound
  · intro changes hc g hg stop rounds depth task
    obtain ⟨more, hmore, he⟩ := evalUntil_unwinds (ht.placed.run changes) hg stop rounds depth task
    exact ⟨more, spares_append.2 ⟨hc, hmore⟩, by rw [run_append, he]⟩

/-- A frame inside another that binds the name declares a function under it. In a call the name
stands for the function. -/
theorem declared_function_recurs_inside :
    let s := initial.run [.declare 0 "f" (some (.integer 3)), .enclose 0 "call:g"]
    let c : Closure := ⟨["n"], .block none [], 2⟩
    let t := s.run [.capture 1, .declare 1 "f" (some (.function c))]
    s.Live 1 ∧ "f" ∉ ["n"] ∧ s.heap.get? 1 "f" = some (some (.integer 3)) ∧
      (t.run (entering 3 2 "call:f" [("n", some (.integer 5))])).heap.get? 3 "f" =
        some (some (.function c)) := by
  have hlive : (initial.run [.declare 0 "f" (some (.integer 3)), .enclose 0 "call:g"]).Live 1 :=
    ⟨by decide, by decide⟩
  have hname : "f" ∉ [(⟨"n", none⟩ : Name)].map Name.text := by decide
  obtain ⟨-, hcalls, -⟩ :=
    declared_function_recurs _ hlive ⟨"f", none⟩ [⟨"n", none⟩] hname (.block none [])
  obtain ⟨-, -, hget⟩ := hcalls [] trivial (.identifier none "f") [some (.integer 5)] rfl
  exact ⟨hlive, hname, rfl, (hget [] trivial nofun).2 rfl nofun⟩

/-- The function that the text `function(n) { 0 }` makes, where it is the first of its heap. -/
def firstFunction : Closure := ⟨["n"], .block none [.expression none (.integer none 0)], 1⟩

/-- **A function that is declared under a name of its frame does not call itself**: in a call the
name stands for what it stood for before. -/
theorem redeclared_function_does_not_recur :
    ¬ ∀ (past : List Change) (f : FrameId) (x : Name) (params : List Name) (body : Node),
      (initial.run past).Live f → x.text ∉ params.map Name.text →
      let s := initial.run past
      let c : Closure := ⟨params.map Name.text, body, s.heap.frames.size⟩
      let t := s.run [.capture f, .declare f x.text (some (.function c))]
      ∀ before, t.Spares before → ∀ (callee : Node) (args : List (Option Value)),
        args.length = params.length →
        let u := t.run before
        let inner := u.heap.frames.size
        let v := u.run (entering inner c.frame ("call:" ++ callee.print) (c.parameters.zip args))
        Unwritten f x.text before →
          v.heap.get? inner x.text = some (some (.function c)) := by
  intro hrecurs
  have hget := hrecurs [.capture 0, .declare 0 "f" (some (.function firstFunction))] 0
    ⟨"f", none⟩ [⟨"n", none⟩] (.block none []) ⟨by decide, by decide⟩ (by decide) [] trivial
    (.identifier none "f") [some (.integer 1)] rfl nofun
  have hfirst : some (some (Value.function firstFunction)) =
      some (some (.function ⟨["n"], .block none [], 2⟩)) := hget
  cases hfirst

-- so the second function calls the first one here, and the call gives zero
example : (Evaluated.result (Heap.initial.evaluate globalFrame { text :=
      "let f = function(n) \x7b 0 \x7d; " ++
      "let f = function(n) \x7b if (n < 1) \x7b 7 \x7d else \x7b f(n - 1) \x7d \x7d; f(1)" }
    {} 0).1).toOption.map (fun o => o.value?.map fun v => v.same (.integer 0)) =
      some (some true) := by
  decide +kernel

end Ember
