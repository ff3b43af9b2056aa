import Mathlib.Algebra.Ring.Nat
import Mathlib.Data.List.Forall2
import Mathlib.Data.List.Infix

/-! Guarded transition machines and their finite runs. Every choice that is
not the program's own (a message, a scheduling decision, the result of a
call) is part of the input, so a state and an input fix the next state. -/
namespace DpdkPerf

/-- `enabled` says which inputs the environment may supply in a state, while
`next` and `output` are total. A run is legal when each input it takes is
enabled in the state that takes it. -/
structure Machine (State Input Output : Type*) where
  enabled : State → Input → Prop
  next : State → Input → State
  output : State → Input → Output

namespace Machine

variable {State Input Output : Type*} (M : Machine State Input Output)

/-- The state after a list of inputs. -/
def run (s : State) (inputs : List Input) : State :=
  inputs.foldl M.next s

/-- Each input of a run, paired with the state that takes it. -/
def visits : State → List Input → List (State × Input)
  | _, [] => []
  | s, i :: rest => (s, i) :: visits (M.next s i) rest

/-- The outputs of a run in order, one for each input. -/
def trace (s : State) (inputs : List Input) : List Output :=
  (M.visits s inputs).map fun v => M.output v.1 v.2

/-- Every step of the run satisfies a condition on its state and input. -/
def Meets (C : State → Input → Prop) (s : State) (inputs : List Input) : Prop :=
  ∀ v ∈ M.visits s inputs, C v.1 v.2

/-- Only enabled inputs are taken. -/
def Admits (s : State) (inputs : List Input) : Prop :=
  M.Meets M.enabled s inputs

/-- A state property holds at the start and in every state the run reaches. -/
def Always (P : State → Prop) (s : State) (inputs : List Input) : Prop :=
  ∀ before, before <+: inputs → P (M.run s before)

instance {C : State → Input → Prop} [∀ s i, Decidable (C s i)] (s : State) (inputs : List Input) :
    Decidable (M.Meets C s inputs) :=
  inferInstanceAs (Decidable (∀ v ∈ M.visits s inputs, C v.1 v.2))

instance [∀ s i, Decidable (M.enabled s i)] (s : State) (inputs : List Input) :
    Decidable (M.Admits s inputs) :=
  inferInstanceAs (Decidable (M.Meets M.enabled s inputs))

@[simp] theorem run_nil (s : State) : M.run s [] = s := rfl

@[simp] theorem run_cons (s : State) (i : Input) (rest : List Input) :
    M.run s (i :: rest) = M.run (M.next s i) rest := rfl

@[simp] theorem run_append (s : State) (first second : List Input) :
    M.run s (first ++ second) = M.run (M.run s first) second :=
  List.foldl_append

@[simp] theorem trace_nil (s : State) : M.trace s [] = [] := rfl

@[simp] theorem trace_cons (s : State) (i : Input) (rest : List Input) :
    M.trace s (i :: rest) = M.output s i :: M.trace (M.next s i) rest := rfl

@[simp] theorem visits_append (s : State) (first second : List Input) :
    M.visits s (first ++ second) = M.visits s first ++ M.visits (M.run s first) second := by
  induction first generalizing s with
  | nil => rfl
  | cons i rest ih => simp [visits, ih]

@[simp] theorem trace_append (s : State) (first second : List Input) :
    M.trace s (first ++ second) = M.trace s first ++ M.trace (M.run s first) second := by
  simp [trace]

variable {M} {C D : State → Input → Prop} {P I : State → Prop}

@[simp] theorem meets_nil (s : State) : M.Meets C s [] := by
  simp [Meets, visits]

@[simp] theorem meets_cons (s : State) (i : Input) (rest : List Input) :
    M.Meets C s (i :: rest) ↔ C s i ∧ M.Meets C (M.next s i) rest := by
  simp [Meets, visits]

@[simp] theorem meets_append (s : State) (first second : List Input) :
    M.Meets C s (first ++ second) ↔ M.Meets C s first ∧ M.Meets C (M.run s first) second := by
  simp only [Meets, visits_append, List.mem_append]
  constructor
  · intro h
    exact ⟨fun v hv => h v (Or.inl hv), fun v hv => h v (Or.inr hv)⟩
  · rintro ⟨hFirst, hSecond⟩ v (hv | hv)
    · exact hFirst v hv
    · exact hSecond v hv

@[simp] theorem admits_nil (s : State) : M.Admits s [] := meets_nil s

@[simp] theorem admits_cons (s : State) (i : Input) (rest : List Input) :
    M.Admits s (i :: rest) ↔ M.enabled s i ∧ M.Admits (M.next s i) rest :=
  meets_cons s i rest

@[simp] theorem admits_append (s : State) (first second : List Input) :
    M.Admits s (first ++ second) ↔ M.Admits s first ∧ M.Admits (M.run s first) second :=
  meets_append s first second

theorem Meets.and {s : State} {inputs : List Input} (hC : M.Meets C s inputs)
    (hD : M.Meets D s inputs) : M.Meets (fun s i => C s i ∧ D s i) s inputs :=
  fun v hv => ⟨hC v hv, hD v hv⟩

theorem Meets.mono {s : State} {inputs : List Input} (h : M.Meets C s inputs)
    (hCD : ∀ s i, C s i → D s i) : M.Meets D s inputs :=
  fun v hv => hCD _ _ (h v hv)

/-- A condition on the inputs alone holds of a run of such inputs. -/
theorem meets_of_inputs {E : Input → Prop} {inputs : List Input} (h : ∀ i ∈ inputs, E i)
    (s : State) : M.Meets (fun _ i => E i) s inputs := by
  induction inputs generalizing s with
  | nil => exact meets_nil s
  | cons i rest ih =>
      rw [List.forall_mem_cons] at h
      exact (meets_cons s i rest).mpr ⟨h.1, ih h.2 (M.next s i)⟩

/-- The induction of every safety proof: what each step that meets `C`
preserves holds after a run of such steps. -/
theorem Meets.invariant_run {s : State} {inputs : List Input} (h : M.Meets C s inputs)
    (hStep : ∀ s i, C s i → I s → I (M.next s i)) (hStart : I s) : I (M.run s inputs) := by
  induction inputs generalizing s with
  | nil => exact hStart
  | cons i rest ih =>
      rw [meets_cons] at h
      exact ih h.2 (hStep s i h.1 hStart)

/-- An invariant that gives `D` of each step it is kept by. -/
theorem Meets.meets_of_invariant {s : State} {inputs : List Input} (h : M.Meets C s inputs)
    (hStep : ∀ s i, C s i → I s → I (M.next s i)) (hD : ∀ s i, C s i → I s → D s i) (hStart : I s) :
    M.Meets D s inputs := by
  induction inputs generalizing s with
  | nil => exact meets_nil s
  | cons i rest ih =>
      rw [meets_cons] at h
      exact (meets_cons s i rest).mpr
        ⟨hD s i h.1 hStart, ih h.2 (hStep s i h.1 hStart)⟩

/-- The same induction for an invariant that speaks of the inputs so far. -/
theorem Meets.invariant_history {s : State} {past inputs : List Input}
    (h : M.Meets C s inputs) (J : List Input → State → Prop)
    (hStep : ∀ past s i, C s i → J past s → J (past ++ [i]) (M.next s i))
    (hStart : J past s) : J (past ++ inputs) (M.run s inputs) := by
  induction inputs generalizing s past with
  | nil => simpa using hStart
  | cons i rest ih =>
      rw [meets_cons] at h
      simpa using ih h.2 (hStep past s i h.1 hStart)

theorem Meets.invariant_inputs {s : State} {inputs : List Input} (h : M.Meets C s inputs)
    (J : List Input → State → Prop)
    (hStep : ∀ past s i, C s i → J past s → J (past ++ [i]) (M.next s i))
    (hStart : J [] s) : J inputs (M.run s inputs) := by
  have hRun := h.invariant_history J hStep hStart
  rwa [List.nil_append] at hRun

@[simp] theorem always_nil (s : State) : M.Always P s [] ↔ P s := by
  simp [Always]

@[simp] theorem always_cons (s : State) (i : Input) (rest : List Input) :
    M.Always P s (i :: rest) ↔ P s ∧ M.Always P (M.next s i) rest := by
  constructor
  · intro h
    refine ⟨h [] (List.nil_prefix), fun before hBefore => ?_⟩
    exact h (i :: before) (List.cons_prefix_cons.mpr ⟨rfl, hBefore⟩)
  · rintro ⟨hHere, hRest⟩ before hBefore
    rcases List.prefix_cons_iff.mp hBefore with rfl | ⟨tail, rfl, hTail⟩
    · exact hHere
    · exact hRest tail hTail

theorem Always.last {s : State} {inputs : List Input} (h : M.Always P s inputs) :
    P (M.run s inputs) :=
  h inputs (List.prefix_refl inputs)

/-- An invariant that implies `P` gives `P` in every state reached. -/
theorem Meets.always {s : State} {inputs : List Input} (h : M.Meets C s inputs)
    (hStep : ∀ s i, C s i → I s → I (M.next s i)) (hStart : I s) (hP : ∀ s, I s → P s) :
    M.Always P s inputs := by
  induction inputs generalizing s with
  | nil => exact (always_nil s).mpr (hP s hStart)
  | cons i rest ih =>
      rw [meets_cons] at h
      exact (always_cons s i rest).mpr ⟨hP s hStart, ih h.2 (hStep s i h.1 hStart)⟩

/-- When a step of the run from an invariant state keeps the invariant if it
meets `C` and breaks `P` at once if it does not, `C` is the exact condition
on a run for `P` to hold throughout. -/
theorem Meets.always_iff {s : State} {inputs : List Input} (hMeets : M.Meets D s inputs)
    (hStart : I s) (hP : ∀ s, I s → P s)
    (hKeep : ∀ s i, D s i → C s i → I s → I (M.next s i))
    (hBreak : ∀ s i, D s i → ¬ C s i → I s → ¬ P (M.next s i)) :
    M.Always P s inputs ↔ M.Meets C s inputs := by
  constructor
  · intro hAlways
    induction inputs generalizing s with
    | nil => exact meets_nil s
    | cons i rest ih =>
        rw [meets_cons] at hMeets
        rw [always_cons] at hAlways
        have hC : C s i := by
          by_contra hNot
          exact hBreak s i hMeets.1 hNot hStart (hAlways.2 [] List.nil_prefix)
        exact (meets_cons s i rest).mpr
          ⟨hC, ih hMeets.2 (hKeep s i hMeets.1 hC hStart) hAlways.2⟩
  · intro hC
    exact (hMeets.and hC).always (fun s i h => hKeep s i h.1 h.2) hStart hP

/-- A monitor over the outputs is at rest after every part of a run exactly
if each step takes it from rest to rest. -/
theorem monitor_rests_iff {Mon Event : Type*} {N : Machine State Input (List Event)}
    (watch : Mon → Event → Option Mon) (rest : Mon) (s : State) (inputs : List Input) :
    (∀ before, before <+: inputs →
        (N.trace s before).flatten.foldlM watch rest = some rest) ↔
      N.Meets (fun s i => (N.output s i).foldlM watch rest = some rest) s inputs := by
  induction inputs generalizing s with
  | nil => simp
  | cons i more ih =>
      rw [meets_cons, ← ih]
      have hStep (before : List Input) :
          (N.trace s (i :: before)).flatten.foldlM watch rest =
            ((N.output s i).foldlM watch rest).bind fun mon =>
              (N.trace (N.next s i) before).flatten.foldlM watch mon := by
        rw [trace_cons, List.flatten_cons, List.foldlM_append]
        rfl
      constructor
      · intro h
        have hFirst : (N.output s i).foldlM watch rest = some rest := by
          have hOne := h [i] (List.cons_prefix_cons.mpr ⟨rfl, List.nil_prefix⟩)
          simpa using hOne
        refine ⟨hFirst, fun before hBefore => ?_⟩
        have hMore := h (i :: before) (List.cons_prefix_cons.mpr ⟨rfl, hBefore⟩)
        rwa [hStep, hFirst] at hMore
      · rintro ⟨hFirst, hMore⟩ before hBefore
        rcases List.prefix_cons_iff.mp hBefore with rfl | ⟨tail, rfl, hTail⟩
        · rfl
        · rw [hStep, hFirst]
          exact hMore tail hTail

/-- A map of states and inputs that commutes with the step commutes with
whole runs, and conditions on the image pull back along it. -/
theorem run_map {State' Input' Output' : Type*} {N : Machine State' Input' Output'}
    {f : State → State'} {g : Input → Input'} (hNext : ∀ s i, f (M.next s i) = N.next (f s) (g i))
    (s : State) (inputs : List Input) : f (M.run s inputs) = N.run (f s) (inputs.map g) := by
  induction inputs generalizing s with
  | nil => rfl
  | cons i rest ih => rw [run_cons, ih, hNext, List.map_cons, run_cons]

/-- A machine that maps onto another meets what its image meets. -/
theorem meets_map {State' Input' Output' : Type*} {N : Machine State' Input' Output'}
    {f : State → State'} {g : Input → Input'} {E : State' → Input' → Prop}
    (hNext : ∀ s i, f (M.next s i) = N.next (f s) (g i)) (s : State) (inputs : List Input) :
    N.Meets E (f s) (inputs.map g) ↔ M.Meets (fun s i => E (f s) (g i)) s inputs := by
  induction inputs generalizing s with
  | nil => simp
  | cons i rest ih => rw [List.map_cons, meets_cons, meets_cons, ← hNext, ih]

/-- A machine that simulates another one. When related states that take
related inputs stay related and give related outputs, whole runs do, and what
each step of the second meets holds of its run. -/
theorem simulates_run {State' Input' Output' : Type*} {N : Machine State' Input' Output'}
    {R : State → State' → Prop} {Q : Input → Input' → Prop} {O : Output → Output' → Prop}
    {E : State' → Input' → Prop}
    (hStep : ∀ s t i j, R s t → Q i j → C s i →
      E t j ∧ R (M.next s i) (N.next t j) ∧ O (M.output s i) (N.output t j))
    {s : State} {t : State'} {inputs : List Input} {inputs' : List Input'} (hStart : R s t)
    (hInputs : List.Forall₂ Q inputs inputs') (hM : M.Meets C s inputs) :
    N.Meets E t inputs' ∧ R (M.run s inputs) (N.run t inputs') ∧
      List.Forall₂ O (M.trace s inputs) (N.trace t inputs') := by
  induction hInputs generalizing s t with
  | nil => exact ⟨meets_nil t, hStart, List.Forall₂.nil⟩
  | @cons i j rest rest' hQ _ ih =>
      rw [meets_cons] at hM
      obtain ⟨hE, hNext, hOutput⟩ := hStep s t i j hStart hQ hM.1
      obtain ⟨hMeets, hLast, hOutputs⟩ := ih hNext hM.2
      exact ⟨(meets_cons t j rest').mpr ⟨hE, hMeets⟩, hLast, List.Forall₂.cons hOutput hOutputs⟩

/-- No sequence of inputs that both machines take tells the two states apart
by what is observed of the outputs. -/
def Alike {State' Obs : Type*} (M : Machine State Input Output) (N : Machine State' Input Output)
    (obs : Output → Obs) (s : State) (t : State') : Prop :=
  ∀ inputs, M.Admits s inputs → N.Admits t inputs →
    (M.trace s inputs).map obs = (N.trace t inputs).map obs

section Alike

variable {State' Obs : Type*} {N : Machine State' Input Output} {obs : Output → Obs} {s : State}
  {t : State'}

/-- A relation that the steps keep, and on which they are observed the same. -/
theorem alike_of_simulation {R : State → State' → Prop}
    (hStep : ∀ s t i, R s t → M.enabled s i → N.enabled t i →
      R (M.next s i) (N.next t i) ∧ obs (M.output s i) = obs (N.output t i))
    (hStart : R s t) : M.Alike N obs s t := by
  intro inputs hM hN
  induction inputs generalizing s t with
  | nil => rfl
  | cons i rest ih =>
      rw [admits_cons] at hM hN
      obtain ⟨hNext, hOutput⟩ := hStep s t i hStart hM.1 hN.1
      rw [trace_cons, trace_cons, List.map_cons, List.map_cons, hOutput, ih hNext hM.2 hN.2]

/-- Machines that are alike cannot be told apart by the next output. -/
theorem Alike.output (h : M.Alike N obs s t) {i : Input} (hM : M.enabled s i)
    (hN : N.enabled t i) : obs (M.output s i) = obs (N.output t i) := by
  have hOne := h [i] ((admits_cons ..).mpr ⟨hM, admits_nil _⟩)
    ((admits_cons ..).mpr ⟨hN, admits_nil _⟩)
  simpa using hOne

theorem Alike.run (h : M.Alike N obs s t) {inputs : List Input} (hM : M.Admits s inputs)
    (hN : N.Admits t inputs) : M.Alike N obs (M.run s inputs) (N.run t inputs) := by
  intro more hMoreM hMoreN
  have hAll := h (inputs ++ more) ((admits_append ..).mpr ⟨hM, hMoreM⟩)
    ((admits_append ..).mpr ⟨hN, hMoreN⟩)
  rw [trace_append, trace_append, List.map_append, List.map_append, h inputs hM hN] at hAll
  exact List.append_cancel_left hAll

theorem Alike.next (h : M.Alike N obs s t) {i : Input} (hM : M.enabled s i)
    (hN : N.enabled t i) : M.Alike N obs (M.next s i) (N.next t i) :=
  @run _ _ _ _ _ _ _ _ _ _ h [i] ((admits_cons ..).mpr ⟨hM, admits_nil _⟩)
    ((admits_cons ..).mpr ⟨hN, admits_nil _⟩)

end Alike

end Machine
end DpdkPerf
