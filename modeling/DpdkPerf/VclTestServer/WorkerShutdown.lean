import DpdkPerf.VclTestServer.EventBatch
import DpdkPerf.VclTestServer.WorkerCounters

/-! The end of the workers of vcl-test-server: what each has done when its
thread ends, and whether one is left when `main` frees their records. -/
namespace DpdkPerf.VclTestServer

section Loop

variable (V : VclTestApi) (useDs : Bool) (poolSize : Nat)

/-- What a worker's loop takes in a step of its thread. -/
def ThreadInput.own : ThreadInput → List Input
  | .loop input => [input]
  | _ => []

theorem ThreadInput.own_workerInit (ok : Bool) : (ThreadInput.workerInit ok).own = [] := rfl

theorem ThreadInput.own_epollFails : ThreadInput.epollFails.own = [] := rfl

theorem ThreadInput.own_go : ThreadInput.go.own = [] := rfl

/-- Where the loop of a worker is left: at `done`, or at `fail` or because
`vppcom_epoll_wait` failed. -/
def LeftAt (failed : Bool) (pc : WorkerPc) : Prop :=
  if failed then pc = .fail ∨ pc = .epollWait else pc = .done

/-- The thread has run the loop of a single worker over these inputs. -/
def WorkerThread.Follows (t : WorkerThread) (own : List Input) : Prop :=
  match t with
  | .absent | .init | .register _ => own = []
  | .loop s => (server V useDs).Admits (.initial V poolSize) own ∧
      s = (server V useDs).run (.initial V poolSize) own
  | .recordFail _ => (server V useDs).Admits (.initial V poolSize) own ∧
      LeftAt true ((server V useDs).run (.initial V poolSize) own).worker.pc
  | .closing failed | .deregister _ failed | .ended failed =>
      (server V useDs).Admits (.initial V poolSize) own ∧
      LeftAt failed ((server V useDs).run (.initial V poolSize) own).worker.pc

variable {V useDs poolSize}

/-- A step of the thread is a step of a single worker, or one outside its loop.
-/
theorem WorkerThread.Follows.step {t : WorkerThread} {own : List Input}
    (h : t.Follows V useDs poolSize own) (counters : Counters) {input : ThreadInput}
    (hEnabled : t.Enabled V useDs input) :
    (t.step V useDs poolSize counters input).1.Follows V useDs poolSize (own ++ input.own) := by
  cases t with
  | absent => exact hEnabled.elim
  | ended failed => exact hEnabled.elim
  | init =>
      cases input with
      | workerInit ok =>
          rw [ThreadInput.own_workerInit, List.append_nil]
          cases ok <;> exact h
      | loop _ | epollFails | go => exact hEnabled.elim
  | register loaded =>
      cases input with
      | go =>
          obtain rfl : own = [] := h
          exact ⟨Machine.admits_nil _, rfl⟩
      | workerInit _ | loop _ | epollFails => exact hEnabled.elim
  | loop s =>
      obtain ⟨hAdmits, rfl⟩ := h
      cases input with
      | workerInit _ => exact hEnabled.elim
      | loop input =>
          refine ⟨(Machine.admits_append ..).mpr ⟨hAdmits, ?_⟩,
            (Machine.run_append (server V useDs) _ own [input]).symm⟩
          exact (Machine.admits_cons ..).mpr ⟨hEnabled, Machine.admits_nil _⟩
      | epollFails =>
          rw [ThreadInput.own_epollFails, List.append_nil]
          exact ⟨hAdmits, Or.inr hEnabled⟩
      | go =>
          rw [ThreadInput.own_go, List.append_nil]
          unfold WorkerThread.step
          dsimp only
          split_ifs with hFail
          · exact ⟨hAdmits, Or.inl hFail⟩
          · exact ⟨hAdmits, hEnabled.resolve_right hFail⟩
  | recordFail _ | closing _ | deregister _ _ =>
      cases input with
      | go =>
          rw [ThreadInput.own_go, List.append_nil]
          exact h
      | workerInit _ | loop _ | epollFails => exact hEnabled.elim

variable {n : Nat}

end Loop

section Free

variable {V : VclTestApi} {useDs : Bool} {poolSize n : Nat}

/-- `main` is past the loop of the first worker. -/
def MainPc.polled : MainPc → Bool
  | .poll | .destroyApp | .freeWorkers | .ret | .returned _ => true
  | _ => false

/-- The record is not accessed after `free`. -/
def Workers.UsesLive (s : Workers n) (input : WorkersInput n) : Prop :=
  s.main.freed = true → s.accessed input = none

/-- The first worker has ended when `main` waits for the others. -/
def Workers.FirstEnded (s : Workers n) : Prop :=
  s.main.polled = true → ∃ failed, s.thread ⟨0, Nat.succ_pos n⟩ = .ended failed

/-- The first worker ends before `main` does so, and stays ended. -/
theorem Workers.FirstEnded.next {s : Workers n} {input : WorkersInput n} (h : s.FirstEnded)
    (hEnabled : s.Enabled V useDs input) : (s.next V useDs poolSize input).FirstEnded := by
  cases input with
  | main createOk =>
      obtain ⟨main, thread, counters⟩ := s
      intro hPolled
      cases main with
      | initFirst => cases hPolled
      | create i =>
          simp only [Workers.next, mainStep] at hPolled
          split_ifs at hPolled <;> cases hPolled
      | loopFirst => exact hEnabled
      | poll =>
          simp only [Workers.next, mainStep]
          split_ifs <;> exact h rfl
      | destroyApp | freeWorkers | ret => exact h rfl
      | returned _ | exited => exact hEnabled.elim
  | thread k input =>
      intro hPolled
      have hMain : s.main.polled = true := by
        unfold Workers.next at hPolled
        dsimp only at hPolled
        split_ifs at hPolled
        · cases hPolled
        · exact hPolled
      obtain ⟨failed, hEnded⟩ := h hMain
      have hNe : (⟨0, Nat.succ_pos n⟩ : Fin (n + 1)) ≠ k := by
        rintro rfl
        have hThread := hEnabled.2
        rw [hEnded] at hThread
        exact hThread
      exact ⟨failed, (Function.update_of_ne hNe _ _).trans hEnded⟩

/-- Every thread has ended or was never created, and none is created any more. -/
structure Workers.Quiet (s : Workers n) : Prop where
  still : ∀ k, s.thread k = .absent ∨ ∃ failed, s.thread k = .ended failed
  main : s.main.uncreatedFrom = none

/-- When all threads have ended none takes a step. -/
theorem Workers.Quiet.not_thread {s : Workers n} (h : s.Quiet) (k : Fin (n + 1))
    (input : ThreadInput) : ¬ s.Enabled V useDs (.thread k input) := by
  rintro ⟨-, hThread⟩
  obtain hStill | ⟨failed, hStill⟩ := h.still k
  · rw [hStill] at hThread
    exact hThread
  · rw [hStill] at hThread
    exact hThread

theorem Workers.Quiet.next {s : Workers n} {input : WorkersInput n} (h : s.Quiet)
    (hEnabled : s.Enabled V useDs input) : (s.next V useDs poolSize input).Quiet := by
  cases input with
  | main createOk =>
      obtain ⟨main, thread, counters⟩ := s
      cases main with
      | initFirst | create _ => exact absurd h.main nofun
      | poll =>
          simp only [Workers.next, mainStep]
          split_ifs
          · exact h
          · exact ⟨h.still, rfl⟩
      | loopFirst | destroyApp | freeWorkers | ret | returned _ | exited => exact ⟨h.still, rfl⟩
  | thread k input => exact absurd hEnabled (h.not_thread k input)

theorem Workers.Quiet.accessed {s : Workers n} {input : WorkersInput n} (h : s.Quiet)
    (hEnabled : s.Enabled V useDs input) : s.accessed input = none := by
  cases input with
  | main createOk =>
      obtain ⟨main, thread, counters⟩ := s
      cases main with
      | initFirst | create _ => exact absurd h.main nofun
      | loopFirst | poll | destroyApp | freeWorkers | ret | returned _ | exited => rfl
  | thread k input => exact absurd hEnabled (h.not_thread k input)

/-- A thread that is neither starting nor counted in `active_workers`. -/
theorem WorkerThread.still_of {t : WorkerThread} (hStarting : t.starting = false)
    (hRegistered : t.registered = false) : t = .absent ∨ ∃ failed, t = .ended failed := by
  cases t with
  | absent => exact Or.inl rfl
  | ended failed => exact Or.inr ⟨failed, rfl⟩
  | init | register _ => cases hStarting
  | loop _ | recordFail _ | closing _ | deregister _ _ => cases hRegistered

variable (V useDs poolSize)

/-- `main` sees no active worker and frees the records. -/
theorem Workers.run_free {s : Workers n} (hPoll : s.main = .poll)
    (hNone : ¬ 0 < s.counters.activeWorkers) :
    (workers V useDs poolSize n).Admits s [.main true, .main true, .main true] ∧
      (workers V useDs poolSize n).run s [.main true, .main true, .main true] =
        ⟨.ret, s.thread, s.counters⟩ := by
  obtain ⟨main, thread, counters⟩ := s
  obtain rfl : main = .poll := hPoll
  have hNext : (workers V useDs poolSize n).next ⟨.poll, thread, counters⟩ (.main true) =
      ⟨.destroyApp, thread, counters⟩ :=
    if_neg hNone
  rw [Machine.run_cons, Machine.admits_cons, Machine.admits_cons, Machine.admits_cons, hNext]
  exact ⟨⟨trivial, trivial, trivial, Machine.admits_nil _⟩, rfl⟩

/-- A worker that is starting when `main` frees the records uses its own. -/
theorem Workers.exists_freed_access {s : Workers n} {k : Fin (n + 1)} (hFreed : s.main = .ret)
    (hk : k ≠ 0) (hStarting : (s.thread k).starting = true) :
    ∃ after, (workers V useDs poolSize n).Admits s after ∧
      ¬ (workers V useDs poolSize n).Meets Workers.UsesLive s after := by
  have hRuns : s.Runs k := by
    unfold Workers.Runs
    rw [if_neg hk, hFreed]
    rfl
  have hFree : s.main.freed = true := by
    rw [hFreed]
    rfl
  cases hThread : s.thread k with
  | init =>
      have hEnabled : (s.thread k).Enabled V useDs (.workerInit true) := by
        rw [hThread]
        trivial
      have hAccess : s.accessed (.thread k (.workerInit true)) = some k := by
        simp [Workers.accessed, hThread, WorkerThread.accesses]
      refine ⟨[.thread k (.workerInit true)],
        (Machine.admits_cons ..).mpr ⟨⟨hRuns, hEnabled⟩, Machine.admits_nil _⟩, fun hMeets => ?_⟩
      have hNone := ((Machine.meets_cons ..).mp hMeets).1 hFree
      rw [hAccess] at hNone
      cases hNone
  | register loaded =>
      have hEnabled : (s.thread k).Enabled V useDs .go := by
        rw [hThread]
        trivial
      -- It stores the counter, and waits for its first event.
      let s' : Workers n := (workers V useDs poolSize n).next s (.thread k .go)
      have hMain : s'.main = .ret := hFreed
      have hLoop : s'.thread k = .loop (Server.initial V poolSize) := by
        change Function.update s.thread k _ k = _
        rw [Function.update_self, hThread]
        rfl
      have hRuns' : s'.Runs k := by
        unfold Workers.Runs
        rw [if_neg hk, hMain]
        rfl
      have hEnabled' : (s'.thread k).Enabled V useDs .epollFails := by
        rw [hLoop]
        rfl
      have hAccess : s'.accessed (.thread k .epollFails) = some k := by
        simp [Workers.accessed, hLoop, WorkerThread.accesses]
      refine ⟨[.thread k .go, .thread k .epollFails],
        (Machine.admits_cons ..).mpr ⟨⟨hRuns, hEnabled⟩,
          (Machine.admits_cons ..).mpr ⟨⟨hRuns', hEnabled'⟩, Machine.admits_nil _⟩⟩,
        fun hMeets => ?_⟩
      have hNone := ((Machine.meets_cons ..).mp ((Machine.meets_cons ..).mp hMeets).2).1
      have hNone' : s'.accessed (.thread k .epollFails) = none := hNone (by
        change s'.main.freed = true
        rw [hMain]
        rfl)
      rw [hAccess] at hNone'
      cases hNone'
  | absent | loop _ | recordFail _ | closing _ | deregister _ _ | ended _ =>
      rw [hThread] at hStarting
      cases hStarting

variable {V useDs poolSize}

/-- When `main` stops waiting, and no update of `active_workers` was lost, the
records it frees stay unused in every continuation exactly if no worker thread
is still starting: `main` waits for the workers that have counted themselves,
not for those it has created. -/
theorem free_safe_iff {before : List (WorkersInput n)}
    (hRun : (workers V useDs poolSize n).Admits (Workers.start n) before)
    (hNotLost : (workers V useDs poolSize n).Meets (Workers.NotLost .activeWorkers)
      (Workers.start n) before)
    (hPoll : ((workers V useDs poolSize n).run (Workers.start n) before).main = .poll)
    (hNone : ¬ 0 < ((workers V useDs poolSize n).run (Workers.start n)
      before).counters.activeWorkers) :
    (∀ after,
      (workers V useDs poolSize n).Admits
        ((workers V useDs poolSize n).run (Workers.start n) before) after →
      (workers V useDs poolSize n).Meets Workers.UsesLive
        ((workers V useDs poolSize n).run (Workers.start n) before) after) ↔
    ∀ k, (((workers V useDs poolSize n).run (Workers.start n) before).thread k).starting =
      false := by
  have hFirst := hRun.invariant_run (I := Workers.FirstEnded) (fun _ _ hEnabled h => h.next hEnabled)
    (fun h => by cases h)
  have hExact := (((Workers.updates_run .activeWorkers hRun).counter_exact_iff
    (Workers.shown_start .activeWorkers)).mpr hNotLost).last
  generalize (workers V useDs poolSize n).run (Workers.start n) before = s at *
  constructor
  · intro hSafe k
    by_contra hStarting
    rw [Bool.not_eq_false] at hStarting
    have hk : k ≠ 0 := by
      rintro rfl
      obtain ⟨failed, hEnded⟩ : ∃ failed, s.thread 0 = .ended failed :=
        hFirst (by rw [hPoll]; rfl)
      rw [hEnded] at hStarting
      cases hStarting
    obtain ⟨hAdmits, hFree⟩ := Workers.run_free V useDs poolSize hPoll hNone
    obtain ⟨after, hAfter, hUsed⟩ := Workers.exists_freed_access V useDs
      poolSize (s := ⟨.ret, s.thread, s.counters⟩) rfl hk hStarting
    have hMeets := hSafe ([.main true, .main true, .main true] ++ after)
      ((Machine.admits_append ..).mpr ⟨hAdmits, by rw [hFree]; exact hAfter⟩)
    have hMore := ((Machine.meets_append ..).mp hMeets).2
    rw [hFree] at hMore
    exact hUsed hMore
  · intro hStarting after hAfter
    have hZero : (Finset.univ.filter fun k => (s.thread k).registered = true).card = 0 := by
      have hShown : ((Finset.univ.filter fun k => (s.thread k).registered = true).card : Int) =
          s.counters.activeWorkers := hExact.symm
      omega
    have hQuiet : s.Quiet := by
      refine ⟨fun k => WorkerThread.still_of (hStarting k) ?_, ?_⟩
      · have hNot := Finset.filter_eq_empty_iff.mp (Finset.card_eq_zero.mp hZero)
          (Finset.mem_univ k)
        exact Bool.not_eq_true _ |>.mp hNot
      · rw [hPoll]
        rfl
    exact hAfter.meets_of_invariant (fun _ _ hEnabled h => h.next hEnabled)
      (fun _ _ hEnabled h _ => h.accessed hEnabled) hQuiet

/-- The first worker fails before the second has counted itself. -/
def lateSecond : List (WorkersInput 1) :=
  let first : Fin 2 := ⟨0, Nat.two_pos⟩
  [.thread first (.workerInit true), .thread first .go, .main true, .main true, .main true,
    .thread first .epollFails, .thread first .go, .thread first .go, .thread first .go,
    .main true]

theorem free_safe_iff_lateSecond :
    ¬ ∀ after,
      (workers packedApi false 1 1).Admits
        ((workers packedApi false 1 1).run (Workers.start 1) lateSecond) after →
      (workers packedApi false 1 1).Meets Workers.UsesLive
        ((workers packedApi false 1 1).run (Workers.start 1) lateSecond) after := by
  have hRun : (workers packedApi false 1 1).Admits (Workers.start 1) lateSecond := by
    decide +kernel
  have hNotLost : (workers packedApi false 1 1).Meets (Workers.NotLost .activeWorkers)
      (Workers.start 1) lateSecond := by
    decide +kernel
  have hPoll : ((workers packedApi false 1 1).run (Workers.start 1) lateSecond).main = .poll := by
    decide +kernel
  have hNone : ¬ 0 < ((workers packedApi false 1 1).run (Workers.start 1)
      lateSecond).counters.activeWorkers := by
    decide +kernel
  have hLate : ¬ ∀ k, (((workers packedApi false 1 1).run (Workers.start 1)
      lateSecond).thread k).starting = false := by
    decide +kernel
  rw [free_safe_iff hRun hNotLost hPoll hNone]
  exact hLate

end Free
end DpdkPerf.VclTestServer
