import LayoutGuard.Proofs.Primitives.Memory

/-!
Memory calls in sequence, with tables installed in between. Each call stores in its own range
what the slot that is active then makes of it, and all other bytes stay as they are. So after
a run a byte is what the last call that covers it has stored, and the first memory's byte if
there is no such call.
-/

namespace LayoutGuard.Primitives

variable {ε : Type}

def Step.Covers (i : Nat) : Step ε → Prop
  | .call c => c.Covers i
  | _ => False

/-- An installation or a call of a memory function that fits the memory. -/
inductive Step.OnMemory (length : Nat) : Step ε → Prop
  | install (t : Primitives ε) : OnMemory length (.install t)
  | memset {dest : Option Nat} {value : Int32} {size : Nat}
      (h : (Call.memset dest value size).Fits length) :
    OnMemory length (.call (.memset dest value size))
  | memcpy {dest : Option Nat} {source : Option (List UInt8)} {size : Nat}
      (h : (Call.memcpy dest source size).Fits length) :
    OnMemory length (.call (.memcpy dest source size))

namespace Host

variable {s : Host ε} {step : Step ε} {steps : List (Step ε)}

theorem run?_append (s : Host ε) (before after : List (Step ε)) :
    s.run? (before ++ after) = (s.run? before).bind fun t => t.run? after := by
  induction before generalizing s with
  | nil => rfl
  | cons step before ih => simp only [List.cons_append, run?, Option.bind_assoc, ih]

/-- A call that fits the memory stores what the active table makes of its range. -/
theorem exists_stores {c : Call} (h : Step.OnMemory s.memory.length (.call c : Step ε)) :
    ∃ u a, s.step? (.call c) = some (u, some a) ∧ u.tables = s.tables ∧
      Stores s.tables.active s.memory c a u.memory := by
  cases h with
  | memset h => exact ⟨_, _, rfl, rfl, stores_memset h⟩
  | memcpy h => exact ⟨_, _, rfl, rfl, stores_memcpy h⟩

theorem exists_step (h : step.OnMemory s.memory.length) :
    ∃ u a, s.step? step = some (u, a) ∧ u.memory.length = s.memory.length ∧
      ∀ i, ¬step.Covers i → u.memory[i]? = s.memory[i]? := by
  cases step with
  | install t => exact ⟨_, _, rfl, rfl, fun _ _ => rfl⟩
  | restore => cases h
  | call c =>
    obtain ⟨u, a, hstep, -, hstores⟩ := exists_stores h
    exact ⟨u, some a, hstep, hstores.length_eq, fun i hi => hstores.outside hi⟩

/-- No step fails, and what no step covers stays. -/
theorem exists_run (h : ∀ step ∈ steps, step.OnMemory s.memory.length) :
    ∃ u, s.run? steps = some u ∧ u.memory.length = s.memory.length ∧
      ∀ i, (∀ step ∈ steps, ¬step.Covers i) → u.memory[i]? = s.memory[i]? := by
  induction steps generalizing s with
  | nil => exact ⟨s, rfl, rfl, fun _ _ => rfl⟩
  | cons step steps ih =>
    obtain ⟨hfirst, hrest⟩ := List.forall_mem_cons.mp h
    obtain ⟨v, a, hstep, hlength, hkept⟩ := exists_step hfirst
    rw [← hlength] at hrest
    obtain ⟨u, hrun, hlength', hkept'⟩ := ih hrest
    refine ⟨u, ?_, hlength'.trans hlength, ?_⟩
    · rw [run?, hstep]
      exact hrun
    · intro i hi
      obtain ⟨hnot, hnots⟩ := List.forall_mem_cons.mp hi
      rw [hkept' i hnots, hkept i hnot]

/-- Memory calls and installations in any order run to their end. The memory keeps its size
and every byte that no call covers. Each call stores in its range what the slot of the table
that is active makes of it, and nothing at a null pointer or for no bytes; a copy gives back
its destination. The standard slots store the value modulo 256 and the bytes of the source.
What a call stores stays until another call covers it. -/
theorem memory_calls_keep_to_ranges (s : Host ε) {steps : List (Step ε)}
    (hsteps : ∀ step ∈ steps, step.OnMemory s.memory.length) :
    ∃ last, s.run? steps = some last ∧ last.memory.length = s.memory.length ∧
      (∀ i, (∀ step ∈ steps, ¬step.Covers i) → last.memory[i]? = s.memory[i]?) ∧
      ∀ before c after, steps = before ++ .call c :: after →
        ∃ u v a, s.run? before = some u ∧ u.step? (.call c) = some (v, some a) ∧
          Stores u.tables.active u.memory c a v.memory ∧
          (u.tables.active = standard → StandardContents v.memory c) ∧
          ∀ i, (∀ step ∈ after, ¬step.Covers i) → last.memory[i]? = v.memory[i]? := by
  obtain ⟨last, hrun, hlength, hkept⟩ := exists_run hsteps
  refine ⟨last, hrun, hlength, hkept, ?_⟩
  rintro before c after rfl
  obtain ⟨hbefore, hcall⟩ := List.forall_mem_append.mp hsteps
  obtain ⟨hc, hafter⟩ := List.forall_mem_cons.mp hcall
  obtain ⟨u, hu, hulength, -⟩ := exists_run hbefore
  rw [← hulength] at hc hafter
  obtain ⟨v, a, hv, -, hstores⟩ := exists_stores hc
  rw [← hstores.length_eq] at hafter
  obtain ⟨w, hw, -, hwkept⟩ := exists_run hafter
  refine ⟨u, v, a, hu, hv, hstores, ?_, ?_⟩
  · intro hstandard
    rw [hstandard] at hstores
    exact hstores.standardContents
  · -- The run behind the call ends where the whole run ends.
    have hsame : last = w := by
      rw [run?_append, hu, Option.bind_some, run?, hv, Option.bind_some, hw] at hrun
      exact (Option.some.inj hrun).symm
    exact hsame ▸ hwkept

/-! A negative value, a table that copies backwards and calls without an effect -/

def backwards : Primitives Unit :=
  { standard with copy := fun _ source => source.reverse }

def emptiedHost : Host Unit :=
  ⟨.ofTable standard, List.replicate 6 0⟩

def mixedSteps : List (Step Unit) :=
  [.call (.memset (some 1) (-1) 3), .install backwards, .call (.memcpy (some 2) (some [1, 2, 3]) 3),
    .call (.memcpy none (some [1, 2, 3]) 3), .call (.memcpy (some 9) none 3),
    .call (.memset (some 0) 7 0), .install standard, .call (.memset (some 5) 0x1ab 1)]

/-- Only what the last call to cover a byte has stored is left of it. -/
theorem mixedSteps_keep_to_ranges :
    (∀ step ∈ mixedSteps, step.OnMemory emptiedHost.memory.length) ∧
      ∃ last, emptiedHost.run? mixedSteps = some last ∧ last.memory = [0, 255, 3, 2, 1, 0xab] ∧
        last.memory[0]? = emptiedHost.memory[0]? := by
  have hsteps : ∀ step ∈ mixedSteps, step.OnMemory emptiedHost.memory.length := by
    simp only [mixedSteps, List.forall_mem_cons]
    exact ⟨.memset fun _ => by decide, .install _, .memcpy fun _ => by decide, .memcpy trivial,
      .memcpy trivial, .memset fun _ => by decide, .install _, .memset fun _ => by decide,
      List.forall_mem_nil _⟩
  have hmemory : (emptiedHost.run? mixedSteps).map memory = some [0, 255, 3, 2, 1, 0xab] := by
    decide +kernel
  obtain ⟨last, hrun, -, hkept, -⟩ := memory_calls_keep_to_ranges emptiedHost hsteps
  rw [hrun] at hmemory
  refine ⟨hsteps, last, hrun, Option.some.inj hmemory, hkept 0 ?_⟩
  simp only [mixedSteps, List.forall_mem_cons, Step.Covers, Call.Covers]
  simp

end Host

end LayoutGuard.Primitives
