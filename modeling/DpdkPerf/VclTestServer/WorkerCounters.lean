import DpdkPerf.VclTestServer.Layout
import DpdkPerf.VclTestServer.Workers

/-! The two counters that the workers of vcl-test-server share, beside the
workers they should count, and the exit status made of one of them. -/
namespace DpdkPerf.VclTestServer

inductive SharedCounter where
  | activeWorkers | workerFails
  deriving DecidableEq, Repr

namespace SharedCounter

def value : SharedCounter → Counters → Int
  | .activeWorkers, counters => counters.activeWorkers
  | .workerFails, counters => counters.workerFails

/-- What a worker adds to the counter. -/
def weight : SharedCounter → WorkerThread → Int
  | .activeWorkers, t => if t.registered then 1 else 0
  | .workerFails, t => if t.failed then -1 else 0

/-- The value loaded, in a step that stores to the counter. -/
def stored : SharedCounter → WorkerThread → ThreadInput → Option Int
  | .activeWorkers, .register loaded, .go => some loaded
  | .activeWorkers, .deregister loaded _, .go => some loaded
  | .workerFails, .recordFail loaded, .go => some loaded
  | _, _, _ => none

end SharedCounter

section Thread

variable {V : VclTestApi} {useDs : Bool} (poolSize : Nat)

/-- What a step of a thread does to a counter and to what its worker adds. -/
theorem WorkerThread.step_updates (c : SharedCounter) (counters : Counters) {t : WorkerThread}
    {input : ThreadInput} (hEnabled : t.Enabled V useDs input) :
    match c.stored t input with
    | none => c.value (t.step V useDs poolSize counters input).2 = c.value counters ∧
        c.weight (t.step V useDs poolSize counters input).1 = c.weight t
    | some loaded => ∃ change,
        c.value (t.step V useDs poolSize counters input).2 = loaded + change ∧
        c.weight (t.step V useDs poolSize counters input).1 = c.weight t + change := by
  cases t with
  | absent => exact hEnabled.elim
  | ended failed => exact hEnabled.elim
  | init =>
      cases input with
      | workerInit ok => cases c <;> cases ok <;> exact ⟨rfl, rfl⟩
      | loop _ | epollFails | go => exact hEnabled.elim
  | register loaded =>
      cases input with
      | go =>
          cases c with
          | activeWorkers => exact ⟨1, rfl, rfl⟩
          | workerFails => exact ⟨rfl, rfl⟩
      | workerInit _ | loop _ | epollFails => exact hEnabled.elim
  | loop s =>
      cases input with
      | workerInit _ => exact hEnabled.elim
      | loop _ | epollFails => cases c <;> exact ⟨rfl, rfl⟩
      | go =>
          by_cases hFail : s.worker.pc = .fail
          · cases c <;> simp [SharedCounter.stored, WorkerThread.step, hFail,
              SharedCounter.weight, WorkerThread.registered, WorkerThread.failed]
          · cases c <;> simp [SharedCounter.stored, WorkerThread.step, hFail,
              SharedCounter.weight, WorkerThread.registered, WorkerThread.failed]
  | recordFail loaded =>
      cases input with
      | go =>
          cases c with
          | activeWorkers => exact ⟨rfl, rfl⟩
          | workerFails => exact ⟨-1, rfl, rfl⟩
      | workerInit _ | loop _ | epollFails => exact hEnabled.elim
  | closing failed =>
      cases input with
      | go => cases c <;> exact ⟨rfl, rfl⟩
      | workerInit _ | loop _ | epollFails => exact hEnabled.elim
  | deregister loaded failed =>
      cases input with
      | go =>
          cases c with
          | activeWorkers => exact ⟨-1, rfl, rfl⟩
          | workerFails => exact ⟨rfl, rfl⟩
      | workerInit _ | loop _ | epollFails => exact hEnabled.elim

/-- Only the store of an update of `worker_fails` changes it or who failed, and
what is held for that store was the counter when it was loaded. -/
theorem WorkerThread.step_fails (counters : Counters) {t : WorkerThread} {input : ThreadInput}
    (hEnabled : t.Enabled V useDs input) :
    (∃ loaded, t = .recordFail loaded ∧ t.step V useDs poolSize counters input =
      (.closing true, { counters with workerFails := loaded - 1 })) ∨
    ((t.step V useDs poolSize counters input).1.failed = t.failed ∧
      (t.step V useDs poolSize counters input).2.workerFails = counters.workerFails ∧
      ∀ loaded, (t.step V useDs poolSize counters input).1 = .recordFail loaded →
        loaded = counters.workerFails) := by
  cases t with
  | absent => exact hEnabled.elim
  | ended failed => exact hEnabled.elim
  | init =>
      cases input with
      | workerInit ok => cases ok <;> exact Or.inr ⟨rfl, rfl, fun _ h => by cases h⟩
      | loop _ | epollFails | go => exact hEnabled.elim
  | recordFail loaded =>
      cases input with
      | go => exact Or.inl ⟨loaded, rfl, rfl⟩
      | workerInit _ | loop _ | epollFails => exact hEnabled.elim
  | loop s =>
      cases input with
      | workerInit _ => exact hEnabled.elim
      | loop _ => exact Or.inr ⟨rfl, rfl, fun _ h => by cases h⟩
      | epollFails => exact Or.inr ⟨rfl, rfl, fun _ h => by cases h; rfl⟩
      | go =>
          by_cases hFail : s.worker.pc = .fail
          · refine Or.inr ?_
            simp only [WorkerThread.step, if_pos hFail]
            exact ⟨rfl, trivial, fun _ h => by cases h; rfl⟩
          · refine Or.inr ?_
            simp only [WorkerThread.step, if_neg hFail]
            exact ⟨rfl, trivial, fun _ h => by cases h⟩
  | register _ | closing _ | deregister _ _ =>
      cases input with
      | go => exact Or.inr ⟨rfl, rfl, fun _ h => by cases h⟩
      | workerInit _ | loop _ | epollFails => exact hEnabled.elim

end Thread

/-- The worker from which on `main` has created no thread, before its loop. -/
def MainPc.uncreatedFrom : MainPc → Option Nat
  | .initFirst => some 1
  | .create i => some i
  | _ => none

namespace Workers

variable {V : VclTestApi} {useDs : Bool} {poolSize n : Nat}

/-- The number the counter should show. -/
def shown (c : SharedCounter) (s : Workers n) : Int :=
  match c with
  | .activeWorkers => (Finset.univ.filter fun k => (s.thread k).registered = true).card
  | .workerFails => -(Finset.univ.filter fun k => (s.thread k).failed = true).card

/-- What the counter should show is the sum over the threads. -/
theorem tally_weight (c : SharedCounter) (s : Workers n) :
    tally c.weight s.thread = s.shown c := by
  cases c with
  | activeWorkers =>
      have hCard : tally SharedCounter.activeWorkers.weight s.thread =
          (Finset.univ.filter fun k => (s.thread k).registered = true).card * 1 :=
        tally_eq_card (fun t : WorkerThread => t.registered = true) 1 fun _ => rfl
      rw [hCard, mul_one]
      rfl
  | workerFails =>
      have hCard : tally SharedCounter.workerFails.weight s.thread =
          (Finset.univ.filter fun k => (s.thread k).failed = true).card * -1 :=
        tally_eq_card (fun t : WorkerThread => t.failed = true) (-1) fun _ => rfl
      rw [hCard, mul_neg_one]
      rfl

/-- The value loaded, in a step that stores to the counter. -/
def stored (c : SharedCounter) (s : Workers n) : WorkersInput n → Option Int
  | .main _ => none
  | .thread k input => c.stored (s.thread k) input

/-- No other store came between the load and the store of an update. -/
def NotLost (c : SharedCounter) (s : Workers n) (input : WorkersInput n) : Prop :=
  ∀ loaded ∈ s.stored c input, loaded = c.value s.counters

instance (c : SharedCounter) (s : Workers n) (input : WorkersInput n) :
    Decidable (s.NotLost c input) :=
  inferInstanceAs (Decidable (∀ loaded ∈ s.stored c input, loaded = c.value s.counters))

/-- The workers from `i` on have no thread while `main` has not come to them. -/
def Uncreated (s : Workers n) : Prop :=
  ∀ i, s.main.uncreatedFrom = some i → ∀ k : Fin (n + 1), i ≤ k.val → s.thread k = .absent

theorem thread_start {k : Fin (n + 1)} (hk : k ≠ 0) : (start n).thread k = .absent := by
  simp [start, hk]

/-- All workers but the first are still to be created. -/
theorem uncreated_start : (start n).Uncreated := by
  intro i hi k hk
  cases hi
  have hNe : k ≠ 0 := by
    rintro rfl
    exact absurd hk (by simp)
  exact thread_start hNe

/-- A step of `main` starts the thread of one more worker or leaves the threads
and the counters alone. -/
theorem mainStep_cases (s : Workers n) (createOk : Bool) (hUncreated : s.Uncreated) :
    (∃ k : Fin (n + 1), s.thread k = .absent ∧ s.main = .create k ∧
      s.mainStep createOk = ⟨.create (k + 1),
        if createOk then Function.update s.thread k .init else s.thread, s.counters⟩) ∨
    ((s.mainStep createOk).thread = s.thread ∧ (s.mainStep createOk).counters = s.counters) := by
  obtain ⟨main, thread, counters⟩ := s
  cases main with
  | create i =>
      by_cases hi : i < n + 1
      · refine Or.inl ⟨⟨i, hi⟩, hUncreated i rfl ⟨i, hi⟩ (Nat.le_refl i), rfl, ?_⟩
        simp only [mainStep, dif_pos hi]
      · refine Or.inr ?_
        simp only [mainStep, dif_neg hi, and_self]
  | poll =>
      refine Or.inr ?_
      unfold mainStep
      dsimp only
      split_ifs <;> exact ⟨rfl, rfl⟩
  | initFirst | loopFirst | destroyApp | freeWorkers | ret | returned _ | exited =>
      exact Or.inr ⟨rfl, rfl⟩

/-- A step creates no thread out of order. -/
theorem Uncreated.next {s : Workers n} {input : WorkersInput n} (h : s.Uncreated)
    (hEnabled : s.Enabled V useDs input) : (s.next V useDs poolSize input).Uncreated := by
  cases input with
  | main createOk =>
      obtain ⟨main, thread, counters⟩ := s
      cases main with
      | initFirst =>
          intro i hi
          exact h i hi
      | create i =>
          by_cases hi : i < n + 1
          · intro j hj k hk
            simp only [Workers.next, mainStep, dif_pos hi] at hj hk ⊢
            cases hj
            have hNe : k ≠ ⟨i, hi⟩ := fun hEq => by
              rw [hEq] at hk
              exact Nat.not_succ_le_self i hk
            cases createOk with
            | false => exact h i rfl k (Nat.le_of_succ_le hk)
            | true =>
                rw [if_pos rfl, Function.update_of_ne hNe]
                exact h i rfl k (Nat.le_of_succ_le hk)
          · intro j hj
            simp only [Workers.next, mainStep, dif_neg hi] at hj
            cases hj
      | poll =>
          intro j hj
          simp only [Workers.next, mainStep] at hj
          split_ifs at hj <;> cases hj
      | loopFirst | destroyApp | freeWorkers | ret | returned _ | exited =>
          intro j hj
          cases hj
  | thread k input =>
      intro i hi j hj
      have hMain : s.main.uncreatedFrom = some i := by
        unfold Workers.next at hi
        dsimp only at hi
        split_ifs at hi
        · cases hi
        · exact hi
      have hAbsent := h i hMain
      have hNe : j ≠ k := by
        rintro rfl
        have hThread := hEnabled.2
        rw [hAbsent j hj] at hThread
        exact hThread
      exact (Function.update_of_ne hNe _ _).trans (hAbsent j hj)

/-- A step of `main` changes neither the counter nor the sum. -/
theorem mainStep_counted (c : SharedCounter) {s : Workers n} (createOk : Bool)
    (hUncreated : s.Uncreated) :
    c.value (s.mainStep createOk).counters = c.value s.counters ∧
      (s.mainStep createOk).shown c = s.shown c := by
  obtain ⟨k, hAbsent, -, hNext⟩ | ⟨hThread, hCounters⟩ := mainStep_cases s createOk hUncreated
  · rw [hNext]
    refine ⟨rfl, ?_⟩
    have hWeight : c.weight .init = c.weight (s.thread k) := by
      rw [hAbsent]
      cases c <;> rfl
    rw [← tally_weight, ← tally_weight]
    cases createOk with
    | false => rfl
    | true => exact tally_update_same hWeight
  · rw [← tally_weight, ← tally_weight, hThread, hCounters]
    exact ⟨rfl, rfl⟩

variable (V useDs poolSize) in
/-- What a thread's step does to the number the counter should show. -/
theorem shown_thread (c : SharedCounter) (s : Workers n) (k : Fin (n + 1)) (input : ThreadInput) :
    (s.next V useDs poolSize (.thread k input)).shown c = s.shown c +
      (c.weight ((s.thread k).step V useDs poolSize s.counters input).1 -
        c.weight (s.thread k)) := by
  rw [← tally_weight, ← tally_weight, ← tally_update]
  rfl

/-- Each step changes the sum as it changes the counter, if it stores what it
loaded. -/
theorem updates_next (c : SharedCounter) {s : Workers n} {input : WorkersInput n}
    (hUncreated : s.Uncreated) (hEnabled : s.Enabled V useDs input) :
    (workers V useDs poolSize n).Updates (fun s => c.value s.counters) (shown c) (stored c)
      s input := by
  unfold Machine.Updates
  cases input with
  | main createOk => exact mainStep_counted c createOk hUncreated
  | thread k input =>
      have hStep := WorkerThread.step_updates poolSize c s.counters hEnabled.2
      have hShown := shown_thread V useDs poolSize c s k input
      change match c.stored (s.thread k) input with
        | none => _
        | some loaded => _
      cases hStored : c.stored (s.thread k) input with
      | none =>
          rw [hStored] at hStep
          exact ⟨hStep.1, hShown.trans (by rw [hStep.2, sub_self, add_zero])⟩
      | some loaded =>
          rw [hStored] at hStep
          obtain ⟨change, hValue, hWeight⟩ := hStep
          exact ⟨change, hValue, hShown.trans (by rw [hWeight, add_sub_cancel_left])⟩

/-- The counters are right at the start. -/
theorem shown_start (c : SharedCounter) : c.value (start n).counters = (start n).shown c := by
  have hZero : ∀ k, c.weight ((start n).thread k) = 0 := by
    intro k
    by_cases hk : k = 0
    · subst hk
      cases c <;> rfl
    · rw [thread_start hk]
      cases c <;> rfl
  rw [← tally_weight, tally_of_zero hZero]
  cases c <;> rfl

theorem updates_run {inputs : List (WorkersInput n)} (c : SharedCounter)
    (hRun : (workers V useDs poolSize n).Admits (start n) inputs) :
    (workers V useDs poolSize n).Meets ((workers V useDs poolSize n).Updates
      (fun s => c.value s.counters) (shown c) (stored c)) (start n) inputs :=
  hRun.meets_of_invariant (I := Uncreated) (fun _ _ hEnabled h => h.next hEnabled)
    (fun _ _ hEnabled h => updates_next c h hEnabled) uncreated_start

end Workers

/-- Whatever the interleaving, `active_workers` is the number of the workers
that run, and `worker_fails` minus the number of those that failed, throughout
a run exactly if no update of the counter is lost to another one. -/
theorem sharedCounter_exact_iff {V : VclTestApi} {useDs : Bool} {poolSize n : Nat}
    {inputs : List (WorkersInput n)} (c : SharedCounter)
    (hRun : (workers V useDs poolSize n).Admits (Workers.start n) inputs) :
    (workers V useDs poolSize n).Always (fun s => c.value s.counters = s.shown c)
        (Workers.start n) inputs ↔
      (workers V useDs poolSize n).Meets (Workers.NotLost c) (Workers.start n) inputs :=
  (Workers.updates_run c hRun).counter_exact_iff (Workers.shown_start c)

/-- A whole run of two workers, in which both fail and load `worker_fails`
before either stores it. -/
def failTogether : List (WorkersInput 1) :=
  [.thread 0 (.workerInit true), .thread 0 .go, .main true, .main true, .main true,
    .thread 1 (.workerInit true), .thread 1 .go,
    .thread 0 .epollFails, .thread 1 .epollFails, .thread 0 .go, .thread 1 .go,
    .thread 0 .go, .thread 0 .go, .thread 1 .go, .thread 1 .go,
    .main true, .main true, .main true, .main true, .main true]

theorem admits_failTogether :
    (workers packedApi false 1 1).Admits (Workers.start 1) failTogether := by
  decide +kernel

/-- The two updates of `active_workers` are apart, those of `worker_fails`
collide. -/
theorem sharedCounter_exact_iff_failTogether :
    (workers packedApi false 1 1).Always
        (fun s => SharedCounter.activeWorkers.value s.counters = s.shown .activeWorkers)
        (Workers.start 1) failTogether ∧
      ¬ (workers packedApi false 1 1).Always
        (fun s => SharedCounter.workerFails.value s.counters = s.shown .workerFails)
        (Workers.start 1) failTogether := by
  constructor
  · rw [sharedCounter_exact_iff .activeWorkers admits_failTogether]
    decide +kernel
  · rw [sharedCounter_exact_iff .workerFails admits_failTogether]
    decide +kernel

section ExitStatus

variable {V : VclTestApi} {useDs : Bool} {poolSize n : Nat}

/-- Lost updates make `worker_fails` count too few, but never none. -/
structure Workers.FailsBounded (s : Workers n) : Prop where
  loaded : ∀ k loaded, s.thread k = .recordFail loaded →
    s.shown .workerFails ≤ loaded ∧ loaded ≤ 0
  low : s.shown .workerFails ≤ s.counters.workerFails
  high : s.counters.workerFails ≤ 0
  seen : s.shown .workerFails < 0 → s.counters.workerFails < 0
  returned : ∀ code, s.main = .returned code → code = s.counters.workerFails

/-- Nobody has failed at the start. -/
theorem Workers.failsBounded_start : (start n).FailsBounded where
  loaded k loaded hLoaded := by
    by_cases hk : k = 0
    · subst hk
      cases hLoaded
    · rw [thread_start hk] at hLoaded
      cases hLoaded
  low := le_of_eq (shown_start .workerFails).symm
  high := le_refl 0
  seen h := by
    rw [← shown_start .workerFails] at h
    exact h
  returned _ h := by cases h

/-- `main` does not fail a worker. -/
theorem Workers.FailsBounded.main {s : Workers n} (h : s.FailsBounded) (createOk : Bool)
    (hUncreated : s.Uncreated) : (s.mainStep createOk).FailsBounded := by
  obtain ⟨hValue, hShown⟩ := mainStep_counted .workerFails createOk hUncreated
  change (s.mainStep createOk).counters.workerFails = s.counters.workerFails at hValue
  refine ⟨fun k loaded hLoaded => ?_, ?_, ?_, ?_, fun code hCode => ?_⟩
  · rw [hShown]
    obtain ⟨j, -, -, hNext⟩ | ⟨hThread, -⟩ := mainStep_cases s createOk hUncreated
    · rw [hNext] at hLoaded
      dsimp only at hLoaded
      split_ifs at hLoaded with hOk
      · by_cases hk : k = j
        · subst hk
          rw [Function.update_self] at hLoaded
          cases hLoaded
        · rw [Function.update_of_ne hk] at hLoaded
          exact h.loaded k loaded hLoaded
      · exact h.loaded k loaded hLoaded
    · rw [hThread] at hLoaded
      exact h.loaded k loaded hLoaded
  · rw [hValue, hShown]
    exact h.low
  · rw [hValue]
    exact h.high
  · rw [hValue, hShown]
    exact h.seen
  · rw [hValue]
    obtain ⟨main, thread, counters⟩ := s
    cases main with
    | ret =>
        cases hCode
        rfl
    | returned code' => exact h.returned code hCode
    | create i =>
        unfold mainStep at hCode
        dsimp only at hCode
        split_ifs at hCode
    | poll =>
        unfold mainStep at hCode
        dsimp only at hCode
        split_ifs at hCode
    | initFirst | loopFirst | destroyApp | freeWorkers | exited => cases hCode

/-- A store of a thread takes one off what it loaded, so it stays in the
bounds. -/
theorem Workers.FailsBounded.thread {s : Workers n} (h : s.FailsBounded) {k : Fin (n + 1)}
    {input : ThreadInput} (hRuns : s.Runs k) (hEnabled : (s.thread k).Enabled V useDs input) :
    (s.next V useDs poolSize (.thread k input)).FailsBounded := by
  have hShown := shown_thread V useDs poolSize .workerFails s k input
  have hOthers (j : Fin (n + 1)) (hj : j ≠ k) :
      (s.next V useDs poolSize (.thread k input)).thread j = s.thread j :=
    Function.update_of_ne hj _ _
  have hSelf : (s.next V useDs poolSize (.thread k input)).thread k =
      ((s.thread k).step V useDs poolSize s.counters input).1 :=
    Function.update_self _ _ _
  have hMain : ∀ code, (s.next V useDs poolSize (.thread k input)).main ≠ .returned code := by
    intro code hCode
    unfold Workers.next at hCode
    dsimp only at hCode
    split_ifs at hCode
    unfold Runs at hRuns
    split_ifs at hRuns
    · obtain ⟨hInit, -⟩ | hLoop := hRuns
      · rw [hInit] at hCode
        cases hCode
      · rw [hLoop] at hCode
        cases hCode
    · rw [hCode] at hRuns
      cases hRuns
  obtain ⟨loaded, hThread, hStep⟩ | ⟨hFailed, hFails, hLoads⟩ :=
    WorkerThread.step_fails poolSize s.counters hEnabled
  · obtain ⟨hLow, hHigh⟩ := h.loaded k loaded hThread
    have hCounter : (s.next V useDs poolSize (.thread k input)).counters.workerFails =
        loaded - 1 := congrArg (fun r => r.2.workerFails) hStep
    rw [hStep, hThread] at hShown
    have hLess : (s.next V useDs poolSize (.thread k input)).shown .workerFails =
        s.shown .workerFails - 1 := hShown
    refine ⟨fun j loaded' hLoaded => ?_, ?_, ?_, fun _ => ?_, fun code hCode => ?_⟩
    · by_cases hj : j = k
      · subst hj
        rw [hSelf, hStep] at hLoaded
        cases hLoaded
      · rw [hOthers j hj] at hLoaded
        have hBounds := h.loaded j loaded' hLoaded
        omega
    · omega
    · omega
    · omega
    · exact absurd hCode (hMain code)
  · have hCounter : (s.next V useDs poolSize (.thread k input)).counters.workerFails =
        s.counters.workerFails := hFails
    have hSame : (s.next V useDs poolSize (.thread k input)).shown .workerFails =
        s.shown .workerFails := by
      have hWeight (t : WorkerThread) :
          SharedCounter.workerFails.weight t = if t.failed then -1 else 0 := rfl
      rw [hShown, hWeight, hWeight, hFailed, sub_self, add_zero]
    refine ⟨fun j loaded hLoaded => ?_, ?_, ?_, ?_, fun code hCode => ?_⟩
    · rw [hSame]
      by_cases hj : j = k
      · subst hj
        rw [hSelf] at hLoaded
        rw [hLoads loaded hLoaded]
        exact ⟨h.low, h.high⟩
      · rw [hOthers j hj] at hLoaded
        exact h.loaded j loaded hLoaded
    · rw [hCounter, hSame]
      exact h.low
    · rw [hCounter]
      exact h.high
    · rw [hCounter, hSame]
      exact h.seen
    · exact absurd hCode (hMain code)

/-- The low byte of what `main` returns. -/
def exitStatus (code : Int) : Int :=
  code % 256

/-- However the updates of the two counters interleave, and whichever of them
are lost, the exit status is 0 exactly if no worker failed, since `cfg.workers`
is a byte. The code itself may only count too few. -/
theorem exitStatus_zero_iff {inputs : List (WorkersInput n)} {code : Int}
    (hRun : (workers V useDs poolSize n).Admits (Workers.start n) inputs) (hWorkers : n + 1 < 256)
    (hReturned : ((workers V useDs poolSize n).run (Workers.start n) inputs).main =
      .returned code) :
    (exitStatus code = 0 ↔ ∀ k,
      (((workers V useDs poolSize n).run (Workers.start n) inputs).thread k).failed = false) ∧
    -(Finset.univ.filter fun k =>
      (((workers V useDs poolSize n).run (Workers.start n) inputs).thread k).failed = true).card
        ≤ code ∧ code ≤ 0 := by
  have hBounded := (hRun.invariant_run (I := fun s => s.Uncreated ∧ s.FailsBounded)
    (fun s input hEnabled h => ⟨h.1.next hEnabled, by
      cases input with
      | main createOk => exact h.2.main createOk h.1
      | thread k input => exact h.2.thread hEnabled.1 hEnabled.2⟩)
    ⟨Workers.uncreated_start, Workers.failsBounded_start⟩).2
  generalize (workers V useDs poolSize n).run (Workers.start n) inputs = s at *
  have hCode := hBounded.returned code hReturned
  have hLow : -((Finset.univ.filter fun k => (s.thread k).failed = true).card : Int) ≤ code := by
    rw [hCode]
    exact hBounded.low
  have hHigh : code ≤ 0 := by
    rw [hCode]
    exact hBounded.high
  have hCard : (Finset.univ.filter fun k => (s.thread k).failed = true).card ≤ n + 1 := by
    have hLe := Finset.card_filter_le (Finset.univ : Finset (Fin (n + 1)))
      fun k => (s.thread k).failed = true
    rwa [Finset.card_univ, Fintype.card_fin] at hLe
  refine ⟨⟨fun hZero k => ?_, fun hNone => ?_⟩, hLow, hHigh⟩
  · have hNotSeen : ¬ s.shown .workerFails < 0 := by
      intro hSeen
      have hFails := hBounded.seen hSeen
      unfold exitStatus at hZero
      omega
    by_contra hFailed
    rw [Bool.not_eq_false] at hFailed
    have hPos : 0 < (Finset.univ.filter fun k => (s.thread k).failed = true).card :=
      Finset.card_pos.mpr ⟨k, Finset.mem_filter.mpr ⟨Finset.mem_univ k, hFailed⟩⟩
    apply hNotSeen
    change -((Finset.univ.filter fun k => (s.thread k).failed = true).card : Int) < 0
    omega
  · have hEmpty : (Finset.univ.filter fun k => (s.thread k).failed = true) = ∅ :=
      Finset.filter_eq_empty_iff.mpr fun k _ => by simp [hNone k]
    rw [hEmpty] at hLow
    unfold exitStatus
    simp only [Finset.card_empty] at hLow
    omega

/-- One of two failures is counted, and the status is 255. -/
theorem exitStatus_zero_iff_failTogether :
    (exitStatus (-1) = 0 ↔ ∀ k, (((workers packedApi false 1 1).run (Workers.start 1)
      failTogether).thread k).failed = false) ∧
    -((Finset.univ.filter fun k => (((workers packedApi false 1 1).run (Workers.start 1)
      failTogether).thread k).failed = true).card : Int) ≤ -1 ∧ (-1 : Int) ≤ 0 := by
  have hReturned : ((workers packedApi false 1 1).run (Workers.start 1) failTogether).main =
      .returned (-1) := by
    decide +kernel
  exact exitStatus_zero_iff admits_failTogether (by decide) hReturned

end ExitStatus

end DpdkPerf.VclTestServer
