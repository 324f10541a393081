import Mathlib.Data.List.Induction
import LayoutGuard.Proofs.Primitives.Range

/-!
Tables that nest. When every installation has its restoration, a call is answered by the table
that was installed last and is not restored yet, and behind the last step the tables are as
they were. Nothing but an assertion that meets a table without a handler ends a run early.
-/

namespace LayoutGuard.Primitives

variable {ε : Type}

/-- A restoration undoes the installation before it. -/
theorem PrimitiveStack.restore?_enter (s : PrimitiveStack ε) (t : Primitives ε) :
    (s.enter t).restore? = some s := rfl

/-- Every installation has its restoration, with such steps in between. -/
inductive Nested : List (Step ε) → Prop
  | nil : Nested []
  | call (c : Call) {rest : List (Step ε)} (h : Nested rest) : Nested (.call c :: rest)
  | scope (t : Primitives ε) {inner rest : List (Step ε)} (hinner : Nested inner)
      (hrest : Nested rest) : Nested (.install t :: (inner ++ .restore :: rest))

/-- The table of the last installation that has no restoration among the steps, and the table
from the start if all of them have one. -/
inductive Innermost (start : Primitives ε) : List (Step ε) → Primitives ε → Prop
  | start {steps : List (Step ε)} (h : Nested steps) : Innermost start steps start
  | installed {before steps : List (Step ε)} (t : Primitives ε) (h : Nested steps) :
    Innermost start (before ++ .install t :: steps) t

/-- Some installation has no restoration among the steps. -/
def Open (steps : List (Step ε)) : Prop :=
  ∃ before t inner, steps = before ++ .install t :: inner ∧ Nested inner

/-- What a call comes to when it reaches the table `t`: the slot of the same name decides. -/
inductive Served (t : Primitives ε) (memory : List UInt8) :
    Call → Option (Answer ε × List UInt8) → Prop
  | stores {c : Call} {a : Answer ε} {after : List UInt8} (h : Stores t memory c a after) :
    Served t memory c (some (a, after))
  | inverseSqrt (x : Float32) :
    Served t memory (.inverseSqrt x) (some (.number (t.inverseSqrt x), memory))
  | sin (x : Float32) : Served t memory (.sin x) (some (.number (t.sin x), memory))
  | cos (x : Float32) : Served t memory (.cos x) (some (.number (t.cos x), memory))
  | atan (x : Float32) : Served t memory (.atan x) (some (.number (t.atan x), memory))
  | atan2 (y x : Float32) : Served t memory (.atan2 y x) (some (.number (t.atan2 y x), memory))
  | handled {condition file : Option (List UInt8)} {line : Int32} {f : AssertionFailure}
      {handler : AssertionFailure → ε} (hf : f = .ofReport condition file line.toInt)
      (h : t.handler = some handler) :
    Served t memory (.assertion condition file line)
      (some (.handled (handler f) f.remark, memory))
  | aborted {condition file : Option (List UInt8)} {line : Int32} (h : t.handler = none) :
    Served t memory (.assertion condition file line) none

/-- Some assertion fails while the innermost table has no handler. -/
def Unhandled (start : Primitives ε) (steps : List (Step ε)) : Prop :=
  ∃ before condition file line after t,
    steps = before ++ .call (.assertion condition file line) :: after ∧
      Innermost start before t ∧ t.handler = none

variable {t start : Primitives ε} {memory after : List UInt8} {c : Call} {a : Answer ε}

/-! One call -/

/-- Each call is answered by the slot of its name in the table that it reaches. -/
theorem served_answer (h : c.Fits memory.length) : Served t memory c (t.answer memory c) := by
  cases c with
  | memset dest value size => exact .stores (stores_memset h)
  | memcpy dest source size => exact .stores (stores_memcpy h)
  | inverseSqrt x => exact .inverseSqrt x
  | sin x => exact .sin x
  | cos x => exact .cos x
  | atan x => exact .atan x
  | atan2 y x => exact .atan2 y x
  | assertion condition file line =>
    cases hhandler : t.handler with
    | none =>
      simp only [answer, assertionFailed, hhandler, Option.map_none]
      exact .aborted hhandler
    | some handler =>
      simp only [answer, assertionFailed, hhandler, Option.map_some]
      exact .handled rfl hhandler

theorem Served.length_eq (h : Served t memory c (some (a, after))) :
    after.length = memory.length := by
  cases h with
  | stores h => exact h.length_eq
  | _ => rfl

/-- The process is aborted by an assertion without a handler and by nothing else. -/
theorem answer_eq_none_iff : t.answer memory c = none ↔
    ∃ condition file line, c = .assertion condition file line ∧ t.handler = none := by
  cases c with
  | assertion condition file line => simp [answer, assertionFailed]
  | _ => simp [answer]

/-! Steps that nest -/

section Steps

variable {step : Step ε} {steps before behind : List (Step ε)}

theorem Nested.open_install {t : Primitives ε} (h : Nested steps) : Open (.install t :: steps) :=
  ⟨[], t, steps, rfl, h⟩

theorem Open.append (earlier : List (Step ε)) (h : Open steps) : Open (earlier ++ steps) := by
  obtain ⟨before, t, inner, rfl, hinner⟩ := h
  exact ⟨earlier ++ before, t, inner, by rw [List.append_assoc], hinner⟩

/-- What stands before a step of a nested sequence. A restoration always has an installation
that it belongs to. -/
theorem Nested.before_step (h : Nested (before ++ step :: behind)) :
    Nested before ∧ step ≠ .restore ∨ Open before := by
  generalize heq : before ++ step :: behind = steps at h
  induction h generalizing before behind with
  | nil => simp at heq
  | @call c rest h ih =>
    rcases List.append_eq_cons_iff.mp heq with ⟨rfl, hstep⟩ | ⟨earlier, rfl, hrest⟩
    · obtain ⟨rfl, -⟩ := List.cons.inj hstep
      exact Or.inl ⟨.nil, nofun⟩
    · rcases ih hrest.symm with ⟨hnested, hstep⟩ | hopen
      · exact Or.inl ⟨.call c hnested, hstep⟩
      · exact Or.inr (hopen.append [.call c])
  | @scope t inner rest hinner hrest ihInner ihRest =>
    rcases List.append_eq_cons_iff.mp heq with ⟨rfl, hstep⟩ | ⟨earlier, rfl, hscope⟩
    · obtain ⟨rfl, -⟩ := List.cons.inj hstep
      exact Or.inl ⟨.nil, nofun⟩
    · -- The step is inside the scope, its restoration, or behind it.
      rcases List.append_eq_append_iff.mp hscope with ⟨w, rfl, hw⟩ | ⟨w, rfl, hw⟩
      · cases w with
        | nil =>
          rw [List.append_nil]
          exact Or.inr hinner.open_install
        | cons closing w =>
          obtain ⟨rfl, hbehind⟩ := List.cons.inj hw
          rcases ihRest hbehind.symm with ⟨hnested, hstep⟩ | hopen
          · exact Or.inl ⟨.scope t hinner hnested, hstep⟩
          · exact Or.inr ((hopen.append [.restore]).append (.install t :: inner))
      · cases w with
        | nil =>
          rw [List.append_nil] at hinner
          exact Or.inr hinner.open_install
        | cons first w =>
          obtain ⟨rfl, -⟩ := List.cons.inj hw
          rcases ihInner rfl with ⟨hnested, -⟩ | hopen
          · exact Or.inr hnested.open_install
          · exact Or.inr (hopen.append [.install t])

/-- Before each step of a nested sequence some table is the innermost one. -/
theorem Nested.exists_innermost (h : Nested (before ++ step :: behind)) :
    ∃ t, Innermost start before t := by
  rcases h.before_step with ⟨hnested, -⟩ | ⟨u, t, v, rfl, hv⟩
  · exact ⟨start, .start hnested⟩
  · exact ⟨t, .installed t hv⟩

theorem unhandled_concat_iff : Unhandled start (steps ++ [step]) ↔
    Unhandled start steps ∨ ∃ condition file line t,
      step = .call (.assertion condition file line) ∧ Innermost start steps t ∧
        t.handler = none := by
  constructor
  · rintro ⟨before, condition, file, line, behind, t, heq, ht, hnone⟩
    rcases List.eq_nil_or_concat' behind with rfl | ⟨behind, last, rfl⟩
    · obtain ⟨rfl, hstep⟩ := List.append_inj' heq rfl
      exact Or.inr ⟨condition, file, line, t, (List.cons.inj hstep).1, ht, hnone⟩
    · rw [← List.cons_append, ← List.append_assoc] at heq
      obtain ⟨rfl, -⟩ := List.append_inj' heq rfl
      exact Or.inl ⟨before, condition, file, line, behind, t, rfl, ht, hnone⟩
  · rintro (⟨before, condition, file, line, behind, t, rfl, ht, hnone⟩ |
      ⟨condition, file, line, t, rfl, ht, hnone⟩)
    · exact ⟨before, condition, file, line, behind ++ [step], t, by simp, ht, hnone⟩
    · exact ⟨steps, condition, file, line, [], t, rfl, ht, hnone⟩

end Steps

namespace Host

variable {s u : Host ε} {step : Step ε} {steps before behind : List (Step ε)}

theorem run?_cons_eq_some_iff : s.run? (step :: steps) = some u ↔
    ∃ v a, s.step? step = some (v, a) ∧ v.run? steps = some u := by
  simp only [run?, Option.bind_eq_some_iff, Prod.exists]

theorem run?_append_eq_some_iff : s.run? (before ++ behind) = some u ↔
    ∃ v, s.run? before = some v ∧ v.run? behind = some u := by
  rw [run?_append, Option.bind_eq_some_iff]

theorem run?_concat_eq_none_iff : s.run? (steps ++ [step]) = none ↔
    s.run? steps = none ∨ ∃ v, s.run? steps = some v ∧ v.step? step = none := by
  rw [run?_append]
  cases s.run? steps with
  | none => simp
  | some v => cases hstep : v.step? step <;> simp [run?, hstep]

theorem tables_of_call {b : Option (Answer ε)} (h : s.step? (.call c) = some (u, b)) :
    u.tables = s.tables := by
  obtain ⟨r, -, hr⟩ := Option.map_eq_some_iff.mp h
  obtain ⟨rfl, -⟩ := Prod.mk.inj hr
  rfl

theorem length_step {b : Option (Answer ε)} (hfits : ∀ c, step = .call c → c.Fits s.memory.length)
    (h : s.step? step = some (u, b)) : u.memory.length = s.memory.length := by
  cases step with
  | install t =>
    obtain ⟨rfl, -⟩ := Prod.mk.inj (Option.some.inj h)
    rfl
  | restore =>
    obtain ⟨tables, -, hr⟩ := Option.map_eq_some_iff.mp h
    obtain ⟨rfl, -⟩ := Prod.mk.inj hr
    rfl
  | call c =>
    obtain ⟨⟨a, after⟩, hanswer, hr⟩ := Option.map_eq_some_iff.mp h
    obtain ⟨rfl, -⟩ := Prod.mk.inj hr
    exact (hanswer ▸ served_answer (hfits c rfl) : Served _ _ c (some (a, after))).length_eq

/-- No run changes the size of the memory. -/
theorem length_run (hfits : ∀ c, .call c ∈ steps → c.Fits s.memory.length)
    (h : s.run? steps = some u) : u.memory.length = s.memory.length := by
  induction steps generalizing s with
  | nil =>
    obtain rfl := Option.some.inj h
    rfl
  | cons step steps ih =>
    obtain ⟨v, b, hstep, hrun⟩ := run?_cons_eq_some_iff.mp h
    have hlength : v.memory.length = s.memory.length :=
      length_step (fun c hc => hfits c (hc ▸ List.mem_cons_self)) hstep
    rw [← hlength] at hfits ⊢
    exact ih (fun c hc => hfits c (List.mem_cons_of_mem step hc)) hrun

/-! Runs of nested steps -/

/-- A nested sequence leaves the tables as it found them. -/
theorem tables_of_nested (hnested : Nested steps) (h : s.run? steps = some u) :
    u.tables = s.tables := by
  induction hnested generalizing s u with
  | nil =>
    obtain rfl := Option.some.inj h
    rfl
  | call c hrest ih =>
    obtain ⟨v, b, hstep, hrun⟩ := run?_cons_eq_some_iff.mp h
    rw [ih hrun, tables_of_call hstep]
  | scope t hinner hrest ihInner ihRest =>
    obtain ⟨v, b, hstep, hrun⟩ := run?_cons_eq_some_iff.mp h
    obtain ⟨rfl, -⟩ := Prod.mk.inj (Option.some.inj hstep)
    obtain ⟨w, hw, hrun⟩ := run?_append_eq_some_iff.mp hrun
    obtain ⟨x, b', hrestore, hrun⟩ := run?_cons_eq_some_iff.mp hrun
    -- What the scope installs again is what its installation gave back.
    have hentered : w.tables = s.tables.enter t := ihInner hw
    simp only [step?, hentered, PrimitiveStack.restore?_enter, Option.map_some, Option.some.injEq,
      Prod.mk.injEq] at hrestore
    obtain ⟨rfl, -⟩ := hrestore
    have hrest := ihRest hrun
    exact hrest

/-- Behind an installation that is still to be undone, its table is the active one. -/
theorem tables_of_open {t : Primitives ε} (hnested : Nested steps)
    (h : s.run? (before ++ .install t :: steps) = some u) :
    ∃ tables : PrimitiveStack ε, u.tables = tables.enter t := by
  obtain ⟨v, -, hrun⟩ := run?_append_eq_some_iff.mp h
  obtain ⟨w, b, hstep, hrun⟩ := run?_cons_eq_some_iff.mp hrun
  obtain ⟨rfl, -⟩ := Prod.mk.inj (Option.some.inj hstep)
  have hkept := tables_of_nested hnested hrun
  exact ⟨v.tables, hkept⟩

/-- The active table is the innermost one of the steps so far. -/
theorem active_of_innermost (ht : Innermost s.tables.active steps t)
    (h : s.run? steps = some u) : u.tables.active = t := by
  cases ht with
  | start hnested => rw [tables_of_nested hnested h]
  | installed t hnested =>
    obtain ⟨tables, htables⟩ := tables_of_open hnested h
    rw [htables]
    rfl

/-- A step of a nested sequence fails only when an assertion meets no handler. -/
theorem step?_eq_none_iff (hnested : Nested (steps ++ step :: behind))
    (h : s.run? steps = some u) : u.step? step = none ↔
      ∃ condition file line t, step = .call (.assertion condition file line) ∧
        Innermost s.tables.active steps t ∧ t.handler = none := by
  cases step with
  | install t => simp [step?]
  | restore =>
    obtain ⟨before, t, inner, rfl, hinner⟩ : Open steps :=
      hnested.before_step.resolve_left fun hbefore => hbefore.2 rfl
    obtain ⟨tables, htables⟩ := tables_of_open hinner h
    simp [step?, htables, PrimitiveStack.restore?_enter]
  | call c =>
    simp only [step?, Option.map_eq_none_iff, answer_eq_none_iff, Step.call.injEq]
    constructor
    · rintro ⟨condition, file, line, hc, hnone⟩
      obtain ⟨t, ht⟩ : ∃ t, Innermost s.tables.active steps t := hnested.exists_innermost
      exact ⟨condition, file, line, t, hc, ht, active_of_innermost ht h ▸ hnone⟩
    · rintro ⟨condition, file, line, t, hc, ht, hnone⟩
      exact ⟨condition, file, line, hc, (active_of_innermost ht h).symm ▸ hnone⟩

/-- A run of nested steps comes to its end unless an assertion meets no handler. -/
theorem run?_eq_none_iff (hnested : Nested (steps ++ behind)) :
    s.run? steps = none ↔ Unhandled s.tables.active steps := by
  induction steps using List.reverseRecOn generalizing behind with
  | nil =>
    constructor
    · intro h
      cases h
    · rintro ⟨before, condition, file, line, after, t, heq, -⟩
      simp at heq
  | append_singleton steps step ih =>
    rw [List.append_assoc] at hnested
    rw [run?_concat_eq_none_iff, unhandled_concat_iff, ih hnested]
    cases hrun : s.run? steps with
    | none =>
      have hunhandled := (ih hnested).mp hrun
      simp [hunhandled]
    | some v => simp only [Option.some.injEq, exists_eq_left', step?_eq_none_iff hnested hrun]

/-- In a nested sequence of installations and restorations every call reaches the innermost
table that is not restored yet, and the slot of its name decides what it comes to; a failed
assertion reaches the handler of that table. A run ends early at an assertion that finds no
handler and nowhere else. Behind a run that ends the tables are those from the start. -/
theorem calls_reach_innermost_table (s : Host ε) {steps : List (Step ε)}
    (hnested : Nested steps) (hfits : ∀ c, .call c ∈ steps → c.Fits s.memory.length) :
    (∀ before c behind, steps = before ++ .call c :: behind →
      (∃ t, Innermost s.tables.active before t) ∧
      ∀ t u, Innermost s.tables.active before t → s.run? before = some u →
        ∃ outcome, Served t u.memory c outcome ∧
          u.step? (.call c) = outcome.map fun r => ({ u with memory := r.2 }, some r.1)) ∧
    (∀ before behind, steps = before ++ behind →
      (s.run? before = none ↔ Unhandled s.tables.active before)) ∧
    ∀ u, s.run? steps = some u → u.tables = s.tables := by
  refine ⟨?_, ?_, fun u => tables_of_nested hnested⟩
  · rintro before c behind rfl
    refine ⟨hnested.exists_innermost, ?_⟩
    intro t u ht hrun
    have hlength : u.memory.length = s.memory.length :=
      length_run (fun c hc => hfits c (List.mem_append_left _ hc)) hrun
    have hcall : c.Fits u.memory.length :=
      hlength ▸ hfits c (List.mem_append_right before List.mem_cons_self)
    rw [← active_of_innermost ht hrun]
    exact ⟨_, served_answer hcall, rfl⟩
  · rintro before behind rfl
    exact run?_eq_none_iff hnested

/-! Two tables, the inner one without a handler -/

def tracing : Primitives String :=
  { (standard : Primitives String) with
    sin := fun x => x + 1.0, handler := some AssertionFailure.condition }

def inverting : Primitives String :=
  { standard with fill := fun {n} _ byte => Vector.replicate n (255 - byte) }

def clearedHost : Host String :=
  ⟨.ofTable standard, [0, 0, 0, 0]⟩

def openedSteps : List (Step String) :=
  [.install tracing, .call (.assertion (some [0x78]) none 7), .install inverting,
    .call (.memset (some 0) 1 2), .restore]

def closedSteps : List (Step String) :=
  openedSteps ++ [.call (.sin 0.5), .restore, .call (.memset (some 1) 1 2)]

theorem nested_inner {rest : List (Step String)} (h : Nested rest) :
    Nested (.call (.assertion (some [0x78]) none 7) :: .install inverting ::
      .call (.memset (some 0) 1 2) :: .restore :: rest) :=
  .call _ (@Nested.scope _ inverting [.call (.memset (some 0) 1 2)] rest (.call _ .nil) h)

theorem nested_closed : Nested closedSteps :=
  @Nested.scope _ tracing _ [.call (.memset (some 1) 1 2)]
    (nested_inner (@Nested.call _ (.sin 0.5) [] .nil)) (.call _ .nil)

/-- The inner table fills with other bytes, and behind its restoration the outer one is reached.
-/
theorem closedSteps_reach_innermost_table :
    (∃ u, clearedHost.run? closedSteps = some u ∧ u.tables = clearedHost.tables ∧
      u.memory = [254, 1, 1, 0]) ∧
    ∃ v, clearedHost.run? openedSteps = some v ∧
      v.step? (.call (.sin 0.5)) = some (v, some (.number (tracing.sin 0.5))) := by
  have hfits : ∀ c, .call c ∈ closedSteps → c.Fits clearedHost.memory.length := by
    simp only [closedSteps, openedSteps, List.cons_append, List.nil_append, List.mem_cons,
      Step.call.injEq, reduceCtorEq, List.not_mem_nil, or_false, false_or]
    rintro c (rfl | rfl | rfl | rfl)
    · trivial
    · exact fun _ => by decide
    · trivial
    · exact fun _ => by decide
  obtain ⟨hcalls, -, htables⟩ := calls_reach_innermost_table clearedHost nested_closed hfits
  have hclosed : (clearedHost.run? closedSteps).map memory = some [254, 1, 1, 0] := by
    decide +kernel
  obtain ⟨u, hu, hmemory⟩ := Option.map_eq_some_iff.mp hclosed
  obtain ⟨v, hv, -⟩ := run?_append_eq_some_iff.mp hu
  obtain ⟨outcome, hserved, hstep⟩ :=
    (hcalls openedSteps (.sin 0.5) _ rfl).2 tracing v (@Innermost.installed _ _ [] _ tracing
      (nested_inner .nil)) hv
  cases hserved with
  | stores h => cases h
  | sin x => exact ⟨⟨u, hu, htables u hu, hmemory⟩, v, hv, hstep⟩

end Host

end LayoutGuard.Primitives
