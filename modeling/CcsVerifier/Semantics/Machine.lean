import Mathlib

/-!
# Machines and their runs

A machine answers every input with an output and moves to its next state. A run is recorded as
the list of its events, so that a property can speak of the past as well as of the state reached.

* `Machine.trace`, `Machine.final`: the events of a run and the state after it.
* `Machine.run_induction`: what every step preserves holds after every run.
* `Machine.run_induction_of_guard`: the same for runs whose events all meet a condition.
* `Machine.pairwise_trace`: a measure that no step decreases, along a run.
* `Machine.forall₂_trace`: related machines give related answers all along a run.
* `Machine.Confines.filter`: an observer that other inputs do not reach sees the same without them.
* `Machine.Projects.exists_run`: a machine that runs another inside does so all along a run.
* `Machine.countP_trace_add_le`: events that are paid for are bounded by what pays for them.
* `List.countP_le_of_fibers`: counts that are compared class by class.
-/

/-- A system that answers an input and moves on. -/
structure Machine (σ ι ο : Type*) where
  /-- The answer to an input in a state, and the next state. -/
  step : σ → ι → ο × σ

/-- One step of a run. -/
structure Machine.Event (σ ι ο : Type*) where
  /-- The state before the step. -/
  before : σ
  /-- The input. -/
  input : ι
  /-- The output. -/
  output : ο
  /-- The state after the step. -/
  after : σ

namespace Machine

variable {σ ι ο : Type*} (M : Machine σ ι ο)

/-- The step on an input in a state. -/
def event (s : σ) (i : ι) : Event σ ι ο := ⟨s, i, (M.step s i).1, (M.step s i).2⟩

/-- The events of a run. -/
def trace : σ → List ι → List (Event σ ι ο)
  | _, [] => []
  | s, i :: inputs => M.event s i :: trace (M.step s i).2 inputs

/-- The state after a run. -/
def final : σ → List ι → σ
  | s, [] => s
  | s, i :: inputs => final (M.step s i).2 inputs

@[simp]
theorem trace_nil (s : σ) : M.trace s [] = [] := rfl

@[simp]
theorem final_nil (s : σ) : M.final s [] = s := rfl

/-- Running on from where a run has ended. -/
theorem final_append (s : σ) (xs ys : List ι) :
    M.final s (xs ++ ys) = M.final (M.final s xs) ys := by
  induction xs generalizing s with
  | nil => rfl
  | cons i xs ih => exact ih (M.step s i).2

/-- The steps of a run are those of its parts. -/
theorem trace_append (s : σ) (xs ys : List ι) :
    M.trace s (xs ++ ys) = M.trace s xs ++ M.trace (M.final s xs) ys := by
  induction xs generalizing s with
  | nil => rfl
  | cons i xs ih =>
    rw [List.cons_append, trace, ih, trace, final, List.cons_append]

/-- The last step of a run. -/
theorem trace_concat (s : σ) (inputs : List ι) (i : ι) :
    M.trace s (inputs ++ [i]) = M.trace s inputs ++ [M.event (M.final s inputs) i] := by
  rw [trace_append]
  rfl

/-- The state after one more step. -/
theorem final_concat (s : σ) (inputs : List ι) (i : ι) :
    M.final s (inputs ++ [i]) = (M.step (M.final s inputs) i).2 := by
  rw [final_append]
  rfl

/-- Every event of a run is a step on one of its inputs. -/
theorem exists_of_mem_trace {s : σ} {inputs : List ι} {e : Event σ ι ο} (h : e ∈ M.trace s inputs) :
    ∃ t, ∃ i ∈ inputs, e = M.event t i := by
  induction inputs generalizing s with
  | nil => cases h
  | cons i inputs ih =>
    obtain rfl | h := List.mem_cons.mp h
    · exact ⟨s, i, List.mem_cons_self, rfl⟩
    · obtain ⟨t, j, hj, he⟩ := ih h
      exact ⟨t, j, List.mem_cons_of_mem _ hj, he⟩

/-- A run that is cut at one of its events: the calls before it, the call and the calls after it. -/
theorem exists_of_trace_eq_append {s : σ} {inputs : List ι} {past later : List (Event σ ι ο)}
    {e : Event σ ι ο} (h : M.trace s inputs = past ++ e :: later) :
    ∃ xs i ys, inputs = xs ++ i :: ys ∧ past = M.trace s xs ∧ e = M.event (M.final s xs) i ∧
      later = M.trace e.after ys := by
  -- each event before `e` takes up one input
  induction past generalizing s inputs with
  | nil =>
    cases inputs with
    | nil => cases h
    | cons i ys =>
      rw [trace, List.nil_append, List.cons.injEq] at h
      obtain ⟨rfl, rfl⟩ := h
      exact ⟨[], i, ys, rfl, rfl, rfl, rfl⟩
  | cons p past ih =>
    cases inputs with
    | nil => cases h
    | cons j inputs =>
      rw [trace, List.cons_append, List.cons.injEq] at h
      obtain ⟨rfl, hrest⟩ := h
      obtain ⟨xs, i, ys, rfl, rfl, he, hlater⟩ := ih hrest
      exact ⟨j :: xs, i, ys, rfl, rfl, he, hlater⟩

section Invariants

variable {M} {P : List (Event σ ι ο) → σ → Prop} {s : σ}

/-- A property of the past and the state that holds at first and is preserved by the steps of a
kind holds after every run of such steps. -/
theorem run_induction_of_guard {G : Event σ ι ο → Prop} (nil : P [] s)
    (step : ∀ past t i, P past t → G (M.event t i) → P (past ++ [M.event t i]) (M.step t i).2)
    (inputs : List ι) (hguard : ∀ e ∈ M.trace s inputs, G e) :
    P (M.trace s inputs) (M.final s inputs) := by
  induction inputs using List.reverseRecOn with
  | nil => exact nil
  | append_singleton inputs i ih =>
    rw [trace_concat] at hguard ⊢
    rw [final_concat]
    have hpast := ih fun e he => hguard e (List.mem_append_left _ he)
    exact step _ _ i hpast (hguard _ (by simp))

/-- A property of the past and the state that holds at first and is preserved by every step holds
after every run. -/
theorem run_induction (nil : P [] s)
    (step : ∀ past t i, P past t → P (past ++ [M.event t i]) (M.step t i).2) (inputs : List ι) :
    P (M.trace s inputs) (M.final s inputs) :=
  run_induction_of_guard (G := fun _ => True) nil (fun past t i h _ => step past t i h) inputs
    fun _ _ => trivial

/-- What holds of every step holds of every event of a run. -/
theorem forall_mem_trace {Q : Event σ ι ο → Prop} (h : ∀ t i, Q (M.event t i)) (inputs : List ι) :
    ∀ e ∈ M.trace s inputs, Q e := by
  induction inputs generalizing s with
  | nil => simp
  | cons i inputs ih => exact List.forall_mem_cons.mpr ⟨h s i, ih⟩

/-- A measure that no step decreases is, after a step, at most what it is before any later one. -/
theorem pairwise_trace {α : Type*} [Preorder α] {f : σ → α} (h : ∀ t i, f t ≤ f (M.step t i).2)
    (s : σ) (inputs : List ι) :
    (M.trace s inputs).Pairwise fun e e' => f e.after ≤ f e'.before := by
  have hlater : ∀ (inputs : List ι) (t : σ), ∀ e ∈ M.trace t inputs, f t ≤ f e.before := by
    intro inputs
    induction inputs with
    | nil => simp
    | cons i inputs ih =>
      intro t
      exact List.forall_mem_cons.mpr ⟨le_rfl, fun e he => (h t i).trans (ih _ e he)⟩
  induction inputs generalizing s with
  | nil => exact .nil
  | cons i inputs ih => exact .cons (hlater inputs (M.step s i).2) (ih _)

end Invariants

section Simulation

variable {σ' ο' : Type*} {M} {N : Machine σ' ι ο'}

/-- Two machines whose states stay related while they get the same inputs give related answers. -/
theorem forall₂_trace {R : σ → σ' → Prop} {Q : ο → ο' → Prop} {inputs : List ι}
    (step : ∀ s t, ∀ i ∈ inputs, R s t →
      Q (M.step s i).1 (N.step t i).1 ∧ R (M.step s i).2 (N.step t i).2)
    {s : σ} {t : σ'} (h : R s t) :
    List.Forall₂ (fun e e' => Q e.output e'.output) (M.trace s inputs) (N.trace t inputs) := by
  induction inputs generalizing s t with
  | nil => exact .nil
  | cons i inputs ih =>
    obtain ⟨houtput, hnext⟩ := step s t i List.mem_cons_self h
    exact .cons houtput (ih (fun s t j hj => step s t j (List.mem_cons_of_mem _ hj)) hnext)

end Simulation

section Confinement

variable {τ ω : Type*} {M}

/-- An observer sees a part of the state and some of the outputs. Inputs that are not about it
change nothing of what it sees; what the others do depends on what it sees only, as long as the
steps meet a condition. -/
structure Confines (M : Machine σ ι ο) (about : ι → Bool) (view : σ → τ) (see : ο → Option ω)
    (G : Event σ ι ο → Prop) : Prop where
  /-- Inputs about something else. -/
  other : ∀ s i, about i = false → view (M.step s i).2 = view s ∧ see (M.step s i).1 = none
  /-- Inputs about the observer. -/
  own : ∀ s t i, about i = true → G (M.event s i) → view s = view t →
    view (M.step s i).2 = view (M.step t i).2 ∧ see (M.step s i).1 = see (M.step t i).1

/-- Without the inputs about other things, the observer sees the same. -/
theorem Confines.filter {about : ι → Bool} {view : σ → τ} {see : ο → Option ω}
    {G : Event σ ι ο → Prop} (h : M.Confines about view see G) {s t : σ} {inputs : List ι}
    (hview : view s = view t) (hguard : ∀ e ∈ M.trace s inputs, G e) :
    view (M.final s inputs) = view (M.final t (inputs.filter about)) ∧
      (M.trace s inputs).filterMap (fun e => see e.output) =
        (M.trace t (inputs.filter about)).filterMap fun e => see e.output := by
  induction inputs generalizing s t with
  | nil => exact ⟨hview, rfl⟩
  | cons i inputs ih =>
    have hrest : ∀ e ∈ M.trace (M.step s i).2 inputs, G e := fun e he =>
      hguard e (List.mem_cons_of_mem _ he)
    -- an input about others is dropped on the right and changes nothing that is seen
    cases habout : about i with
    | false =>
      obtain ⟨hstep, hnone⟩ := h.other s i habout
      rw [List.filter_cons_of_neg (by simp [habout]), trace, final,
        List.filterMap_cons_none (f := fun e : Event σ ι ο => see e.output) hnone]
      exact ih (hstep.trans hview) hrest
    | true =>
      obtain ⟨hstep, hsee⟩ := h.own s t i habout (hguard _ List.mem_cons_self) hview
      obtain ⟨hfinal, htrace⟩ := ih hstep hrest
      rw [List.filter_cons_of_pos habout, trace, trace, final, final]
      refine ⟨hfinal, ?_⟩
      rw [List.filterMap_cons, List.filterMap_cons, htrace,
        show see (M.event s i).output = see (M.event t i).output from hsee]

end Confinement

section Projection

variable {σ' ι' ο' ω : Type*} {M} {N : Machine σ' ι' ο'}

/-- A part of the state of `M` is a state of `N`: a step of `M` is a step of `N` there, on an input
of some kind, and shows the same, or it leaves that part alone and shows nothing. -/
def Projects (M : Machine σ ι ο) (N : Machine σ' ι' ο') (P : ι' → Prop) (view : σ → σ')
    (see : ο → Option ω) (see' : ο' → Option ω) : Prop :=
  ∀ s i, (view (M.step s i).2 = view s ∧ see (M.step s i).1 = none) ∨
    ∃ j, P j ∧ view (M.step s i).2 = (N.step (view s) j).2 ∧
      see (M.step s i).1 = see' (N.step (view s) j).1

/-- Every run of the one machine is a run of the other in that part of its state. -/
theorem Projects.exists_run {P : ι' → Prop} {view : σ → σ'} {see : ο → Option ω}
    {see' : ο' → Option ω} (h : M.Projects N P view see see') (s : σ) (inputs : List ι) :
    ∃ inputs', (∀ j ∈ inputs', P j) ∧ view (M.final s inputs) = N.final (view s) inputs' ∧
      (M.trace s inputs).filterMap (fun e => see e.output) =
        (N.trace (view s) inputs').filterMap fun e => see' e.output := by
  induction inputs generalizing s with
  | nil => exact ⟨[], by simp, rfl, rfl⟩
  | cons i inputs ih =>
    obtain ⟨inputs', hinputs, hfinal, htrace⟩ := ih (M.step s i).2
    -- a step of the one machine is a step of the other or is not seen there
    obtain ⟨hsame, hnone⟩ | ⟨j, hj, hnext, hsee⟩ := h s i
    · rw [hsame] at hfinal htrace
      refine ⟨inputs', hinputs, hfinal, ?_⟩
      rw [trace, List.filterMap_cons_none (f := fun e : Event σ ι ο => see e.output) hnone, htrace]
    · rw [hnext] at hfinal htrace
      refine ⟨j :: inputs', List.forall_mem_cons.mpr ⟨hj, hinputs⟩, hfinal, ?_⟩
      rw [trace, trace, List.filterMap_cons, List.filterMap_cons, htrace,
        show see (M.event s i).output = see' (N.event (view s) j).output from hsee]

end Projection

section Accounting

variable {M}

/-- Events that cost something are paid for by the events that bring something in, when every step
pays out of what it has in hand. -/
theorem countP_trace_add_le (cost income : Event σ ι ο → Bool) {N : ℕ} (hand : σ → ℕ)
    (step : ∀ s i, (if cost (M.event s i) then 1 else 0) + hand (M.step s i).2 ≤
      hand s + if income (M.event s i) then N else 0) (s : σ) (inputs : List ι) :
    (M.trace s inputs).countP cost + hand (M.final s inputs) ≤
      hand s + N * (M.trace s inputs).countP income := by
  induction inputs generalizing s with
  | nil => simp
  | cons i inputs ih =>
    have hrest := ih (M.step s i).2
    have hstep := step s i
    rw [trace, final, List.countP_cons, List.countP_cons, mul_add, mul_ite, mul_one, mul_zero]
    omega

end Accounting

end Machine

/-! ## Counting by classes -/

/-- A count is the sum of the counts in the classes. -/
theorem List.countP_eq_sum_fibers {α κ : Type*} [DecidableEq κ] (p : α → Bool) (label : α → κ)
    {l : List α} {S : Finset κ} (h : ∀ a ∈ l, label a ∈ S) :
    l.countP p = ∑ k ∈ S, l.countP fun a => p a && decide (label a = k) := by
  induction l with
  | nil => simp
  | cons a l ih =>
    rw [List.forall_mem_cons] at h
    simp only [List.countP_cons, Finset.sum_add_distrib, ih h.2, Bool.and_eq_true,
      decide_eq_true_eq]
    congr 1
    cases p a <;> simp [h.1]

/-- What is at most as frequent in every class is at most as frequent. -/
theorem List.countP_le_of_fibers {α κ : Type*} [DecidableEq κ] {p q : α → Bool} (label : α → κ)
    {l : List α} (h : ∀ k, (l.countP fun a => p a && decide (label a = k)) ≤
      l.countP fun a => q a && decide (label a = k)) : l.countP p ≤ l.countP q := by
  have hlabels : ∀ a ∈ l, label a ∈ (l.map label).toFinset := fun a ha =>
    List.mem_toFinset.mpr (List.mem_map_of_mem ha)
  rw [countP_eq_sum_fibers p label hlabels, countP_eq_sum_fibers q label hlabels]
  exact Finset.sum_le_sum fun k _ => h k
