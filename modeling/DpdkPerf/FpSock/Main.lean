import DpdkPerf.Machine.Tending
import DpdkPerf.VclTestServer.Options

/-! The `main` of fp-sock: what it sets up of ODP and OFP, the threads it starts,
and what it takes down again from each place where it can fail. -/
namespace DpdkPerf.FpSock

open VclTestServer (atoi)

/-- The options of the command line. -/
structure ApplArgs where
  coreCount : Int32 := 0
  cliFile : Option (List Char) := none
  perfStat : Bool := false
  deriving DecidableEq

/-- What `getopt_long` gives: an option with its argument, and whether a
`malloc` that it asks for finds memory. -/
structure ParsedOpt where
  opt : Char
  optarg : List Char := []
  malloc : Bool := true
  deriving DecidableEq

def parseArgs (applArgs : ApplArgs) : List ParsedOpt → Option ApplArgs
  | [] => some applArgs
  | ⟨'c', optarg, _⟩ :: opts => parseArgs { applArgs with coreCount := atoi optarg } opts
  | ⟨'h', _, _⟩ :: _ => none
  | ⟨'p', _, _⟩ :: opts => parseArgs { applArgs with perfStat := true } opts
  | ⟨'f', optarg, malloc⟩ :: opts =>
      if optarg.length = 0 then none
      else if malloc = false then none
      else parseArgs { applArgs with cliFile := some optarg } opts
  | _ :: opts => parseArgs applArgs opts

/-- The arguments are refused for the help, and for a file name that is empty or
that there is no memory for. -/
theorem parseArgs_isSome_iff (applArgs : ApplArgs) (opts : List ParsedOpt) :
    (parseArgs applArgs opts).isSome ↔
      ∀ o ∈ opts, o.opt ≠ 'h' ∧ (o.opt = 'f' → o.optarg ≠ [] ∧ o.malloc = true) := by
  fun_induction parseArgs applArgs opts with
  | case1 applArgs => simp
  | case2 applArgs optarg malloc opts ih => simp [ih]
  | case3 applArgs optarg malloc opts => simp
  | case4 applArgs optarg malloc opts ih => simp [ih]
  | case5 applArgs optarg malloc opts hEmpty => simp [List.length_eq_zero_iff.mp hEmpty]
  | case6 applArgs optarg opts hFull => simp
  | case7 applArgs optarg malloc opts hFull hRoom ih =>
      have hNe : optarg ≠ [] := fun h => hFull (List.length_eq_zero_iff.mpr h)
      simp [ih, hNe, hRoom]
  | case8 applArgs o opts hCount hHelp hPerf hFile ih =>
      have hNotHelp : o.opt ≠ 'h' := by
        rintro hOpt
        obtain ⟨opt, optarg, malloc⟩ := o
        obtain rfl : opt = 'h' := hOpt
        exact hHelp optarg malloc rfl
      have hNotFile : o.opt ≠ 'f' := by
        rintro hOpt
        obtain ⟨opt, optarg, malloc⟩ := o
        obtain rfl : opt = 'f' := hOpt
        exact hFile optarg malloc rfl
      simp [ih, hNotHelp, hNotFile]

inductive PktinMode where
  | sched
  | other (mode : Int)
  deriving DecidableEq, Repr

inductive PktoutMode where
  | queue
  | other (mode : Int)
  deriving DecidableEq, Repr

inductive SchedSync where
  | parallel
  | atomic
  | ordered
  | unknown (sync : Int)
  deriving DecidableEq, Repr

/-- What `main` looks at of `ofp_global_param_t`. -/
structure OfpGlobalParam where
  pktinMode : PktinMode
  pktoutMode : PktoutMode
  schedSync : SchedSync
  deriving DecidableEq, Repr

def maxWorkers : Int := 32

inductive MainCall where
  | setupExit
  | printf (format : String) (args : List Int)
  | odpInitGlobal
  | odpInitLocal
  | odpCpuCount
  | odpCpumaskDefaultWorker (num : Int)
  | odpCpumaskToStr
  | odpScheduleConfig
  | ofpInitGlobal (params : OfpGlobalParam)
  | ofpInitLocal
  | createWorkers
  | ofpStopProcessing
  | joinWorkers
  | ofpStartCliThread (cliFile : Option (List Char))
  | startPerformance
  | createServer
  | ofpTermLocal
  | ofpTermGlobal
  | odpTermLocal
  | odpTermGlobal
  deriving DecidableEq

/-- Where `main` goes on after a failure. -/
inductive Label where
  | exitFailure
  | exit0
  | exit1
  deriving DecidableEq, Repr

abbrev Main := EStateM Label (List MainCall)

def exitSuccess : Int := 0

def exitFailure : Int := 1

section Main

variable (answer : MainCall → Int) (applArgs : ApplArgs) (params : OfpGlobalParam)

def printf (format : String) (args : List Int) : Main Unit := do
  let _ ← call answer (.printf format args)

def warnPktin : Main OfpGlobalParam :=
  if params.pktinMode ≠ .sched then do
    printf answer "Warning: Forcing scheduled pktin mode.\n" []
    return { params with pktinMode := .sched }
  else return params

def warnSync : Main OfpGlobalParam :=
  match params.schedSync with
  | .parallel => do
      printf answer "Warning: Packet order is not preserved with parallel RX queues\n" []
      return params
  | .atomic => return params
  | .ordered => do
      (if params.pktoutMode ≠ .queue then
        printf answer ("Warning: Packet order is not preserved with " ++
          "ordered RX queues and direct TX queues.\n") []
      else pure ())
      return params
  | .unknown _ => do
      printf answer ("Warning: Unknown scheduling synchronization mode. " ++
        "Forcing atomic mode.\n") []
      return { params with schedSync := .atomic }

/-- How many workers are asked for. -/
def workersWanted (applArgs : ApplArgs) (coreCount : Int) : Int :=
  let numWorkers :=
    if applArgs.coreCount ≠ 0 then applArgs.coreCount.toInt
    else if 1 < coreCount then coreCount - 1 else coreCount
  if maxWorkers < numWorkers then maxWorkers else numWorkers

/-- Up to the part where OFP is set up. -/
def setUp : Main Int := do
  let rv ← call answer .setupExit
  check (rv ≠ exitSuccess) (throw .exitFailure)
  let rv ← call answer .odpInitGlobal
  check (rv ≠ 0) do
    printf answer "Error: ODP global init failed.\n" []
    throw .exitFailure
  let rv ← call answer .odpInitLocal
  check (rv ≠ 0) do
    printf answer "Error: ODP local init failed.\n" []
    let _ ← call answer .odpTermGlobal
    throw .exitFailure
  let coreCount ← call answer .odpCpuCount
  let numWorkers ← call answer (.odpCpumaskDefaultWorker (workersWanted applArgs coreCount))
  let rv ← call answer .odpCpumaskToStr
  check (rv < 0) do
    printf answer "Error: Too small buffer provided to odp_cpumask_to_str\n" []
    let _ ← call answer .odpTermLocal
    let _ ← call answer .odpTermGlobal
    throw .exitFailure
  printf answer "Num worker threads: %i\n" [numWorkers]
  return numWorkers

def stopWorkers : Main Unit := do
  let _ ← call answer .ofpStopProcessing
  let _ ← call answer .joinWorkers
  throw .exit0

def startPerf : Main Unit := do
  let rv ← call answer .startPerformance
  check (rv ≤ 0) do
    printf answer "Error: Failed to init performance monitor" []
    stopWorkers answer
  return ()

/-- OFP and the threads, to the end of the workers. -/
def work (numWorkers : Int) : Main Unit := do
  let _ ← call answer .odpScheduleConfig
  let rv ← call answer (.ofpInitGlobal params)
  check (rv ≠ 0) do
    printf answer "Error: OFP global init failed.\n" []
    throw .exit1
  let rv ← call answer .ofpInitLocal
  check (rv ≠ 0) do
    printf answer "Error: OFP local init failed.\n" []
    throw .exit0
  let retVal ← call answer .createWorkers
  check (retVal ≠ numWorkers) do
    printf answer "Error: Failed to create worker threads, expected %d, got %d" [numWorkers, retVal]
    stopWorkers answer
  let rv ← call answer (.ofpStartCliThread applArgs.cliFile)
  check (rv < 0) do
    printf answer "Error: Failed to init CLI thread" []
    stopWorkers answer
  (if applArgs.perfStat then startPerf answer else pure ())
  let _ ← call answer .createServer
  let _ ← call answer .joinWorkers

def term (c : MainCall) (error : String) : Main Unit := do
  let rv ← call answer c
  (if rv < 0 then printf answer error [] else pure ())

def exit1 : Main Int := do
  term answer .ofpTermGlobal "Error: ofp_term_global failed\n"
  term answer .odpTermLocal "Error: odp_term_local failed\n"
  term answer .odpTermGlobal "Error: odp_term_global failed\n"
  printf answer "FPM End Main()\n" []
  return exitSuccess

def exit0 : Main Int := do
  term answer .ofpTermLocal "Error: ofp_term_local failed\n"
  exit1 answer

/-- `opts` are the options of the command line. -/
def main (opts : List ParsedOpt) : Main Int :=
  match parseArgs {} opts with
  | none => return exitFailure
  | some applArgs => tryCatch
      (do
        let numWorkers ← setUp answer applArgs
        let params ← warnPktin answer params
        let params ← warnSync answer params
        work answer applArgs params numWorkers
        exit0 answer)
      fun
        | .exitFailure => return exitFailure
        | .exit0 => exit0 answer
        | .exit1 => exit1 answer

end Main

/-- The parts that are set up and taken down, and the threads. -/
inductive Part where
  | odpGlobal
  | odpLocal
  | ofpGlobal
  | ofpLocal
  | workers
  | cli
  | performance
  | server
  deriving DecidableEq, Repr

/-- What a call does. An init of OFP that fails is taken down nevertheless, so
it counts from where it is begun. A call that starts threads sets them up, and
it is not taken for a use of ODP and OFP. -/
def partOp (answer : MainCall → Int) : MainCall → Option (HandleOp Part)
  | .odpInitGlobal => if answer .odpInitGlobal ≠ 0 then none else some (.acquire .odpGlobal)
  | .odpInitLocal => if answer .odpInitLocal ≠ 0 then none else some (.acquire .odpLocal)
  | .odpCpuCount | .odpCpumaskDefaultWorker _ | .odpCpumaskToStr | .odpScheduleConfig =>
      some (.use .odpLocal)
  | .ofpInitGlobal _ => some (.acquire .ofpGlobal)
  | .ofpInitLocal => some (.acquire .ofpLocal)
  | .createWorkers => some (.acquire .workers)
  | .ofpStopProcessing => some (.use .ofpGlobal)
  | .joinWorkers => some (.release .workers)
  | .ofpStartCliThread cliFile =>
      if answer (.ofpStartCliThread cliFile) < 0 then none else some (.acquire .cli)
  | .startPerformance =>
      if answer .startPerformance ≤ 0 then none else some (.acquire .performance)
  | .createServer => if answer .createServer ≤ 0 then none else some (.acquire .server)
  | .ofpTermLocal => some (.release .ofpLocal)
  | .ofpTermGlobal => some (.release .ofpGlobal)
  | .odpTermLocal => some (.release .odpLocal)
  | .odpTermGlobal => some (.release .odpGlobal)
  | .setupExit | .printf _ _ => none

/-- The threads that `main` does not wait for. -/
def unjoined : Finset Part := {.cli, .performance, .server}

def odpUp : Finset Part := {.odpGlobal, .odpLocal}

def ofpUp : Finset Part := {.odpGlobal, .odpLocal, .ofpGlobal, .ofpLocal}

/-- What is up at a label. -/
def Label.span : Label → Span Part
  | exitFailure => ⟨∅, ∅⟩
  | exit0 => ⟨ofpUp, ofpUp ∪ unjoined⟩
  | exit1 => ⟨ofpUp.erase .ofpLocal, ofpUp.erase .ofpLocal ∪ unjoined⟩

section Proofs

variable {answer : MainCall → Int} {applArgs : ApplArgs} {params : OfpGlobalParam}
  {pre : Finset Part → Prop} {α β : Type} {post : β → Finset Part → Prop}
  {escape : Label → Finset Part → Prop} {format : String} {args : List Int}

/-- Printing sets nothing up. -/
theorem tends_printf {next : Unit → Main β} (h : Tends (partOp answer) pre (next ()) post escape) :
    Tends (partOp answer) pre (printf answer format args >>= next) post escape := by
  have hPrint : Tends (partOp answer) pre (printf answer format args) (fun _ => pre) escape :=
    tends_callOther rfl (tends_pure fun _ hPre => hPre)
  exact hPrint.bind fun _ => h

/-- A part is taken down, whatever the call answers. -/
theorem tends_term {part : Part} {c : MainCall} {error : String} {s : Span Part}
    {next : Unit → Main β} (hOp : partOp answer c = some (.release part)) (hHeld : part ∈ s.sure)
    (h : Tends (partOp answer) (Span.Within ⟨s.sure.erase part, s.may.erase part⟩) (next ())
      post escape) :
    Tends (partOp answer) s.Within (term answer c error >>= next) post escape := by
  unfold term
  refine Tends.bind (tends_release hOp hHeld ?_) fun _ => h
  split
  · exact tends_callOther rfl (tends_pure fun _ hPre => hPre)
  · exact tends_pure fun _ hPre => hPre

/-- From `exit_1` on, ODP is taken down. -/
theorem exit1_tends : Tends (partOp answer) Label.exit1.span.Within (exit1 answer)
    (fun code held => code = exitSuccess ∧ held ⊆ unjoined) escape := by
  unfold exit1
  refine tends_term rfl (by decide) (tends_term rfl (by decide) (tends_term rfl (by decide) ?_))
  exact tends_printf (tends_pure fun _ h => ⟨rfl, h.2.trans (by decide)⟩)

/-- From `exit_0` on, OFP as well. -/
theorem exit0_tends : Tends (partOp answer) Label.exit0.span.Within (exit0 answer)
    (fun code held => code = exitSuccess ∧ held ⊆ unjoined) escape := by
  unfold exit0
  refine tends_term rfl (by decide) ?_
  exact exit1_tends.weaken (fun _ h => h.mono (by decide) (by decide)) fun _ _ h => h

/-- The first part sets ODP up, or jumps to where what is up is taken down. -/
theorem setUp_tends : Tends (partOp answer) (Span.Within ⟨∅, ∅⟩) (setUp answer applArgs)
    (fun _ => Span.Within ⟨odpUp, odpUp⟩) fun label => label.span.Within := by
  unfold setUp
  refine tends_callOther rfl (tends_check (fun _ => tends_throw fun _ h => h) fun _ => ?_)
  refine tends_acquireChecked rfl (by decide) (tends_printf (tends_throw fun _ h => h)) ?_
  refine tends_acquireChecked rfl (by decide) ?_ ?_
  · refine tends_printf (tends_release rfl (by decide) (tends_throw fun _ h => ?_))
    exact h.mono (by decide) (by decide)
  refine tends_use rfl (by decide) (tends_use rfl (by decide) (tends_use rfl (by decide) ?_))
  refine tends_check (fun _ => tends_printf ?_) fun _ => tends_printf (tends_pure fun _ h => ?_)
  · refine tends_release rfl (by decide) (tends_release rfl (by decide) (tends_throw fun _ h => ?_))
    exact h.mono (by decide) (by decide)
  · exact h.mono (by decide) (by decide)

/-- What is up with the workers. -/
def workersUp (s : Span Part) : Span Part := ⟨insert .workers s.sure, insert .workers s.may⟩

/-- A failure behind the start of the workers stops and joins them. -/
theorem stopWorkers_tends :
    Tends (partOp answer) (workersUp Label.exit0.span).Within (stopWorkers answer)
      (fun _ _ => False) fun label => label.span.Within := by
  unfold stopWorkers
  refine tends_use rfl (by decide) (tends_release rfl (by decide) (tends_throw fun _ h => ?_))
  exact h.mono (by decide) (by decide)

/-- The performance thread is started or the workers are stopped. -/
theorem startPerf_tends :
    Tends (partOp answer) (workersUp ⟨ofpUp, ofpUp ∪ {.cli}⟩).Within (startPerf answer)
      (fun _ => (workersUp ⟨ofpUp, ofpUp ∪ {.cli, .performance}⟩).Within)
      fun label => label.span.Within := by
  unfold startPerf
  refine tends_acquireChecked rfl (by decide) (tends_printf ?_) (tends_pure fun _ h => ?_)
  · exact stopWorkers_tends.weaken (fun _ h => h.mono (by decide) (by decide)) fun _ _ h => h
  · exact h.mono (by decide) (by decide)

/-- The second part sets OFP up, starts the threads and waits for the workers.
-/
theorem work_tends {numWorkers : Int} : Tends (partOp answer) (Span.Within ⟨odpUp, odpUp⟩)
    (work answer applArgs params numWorkers) (fun _ => Label.exit0.span.Within)
    fun label => label.span.Within := by
  unfold work
  refine tends_use rfl (by decide) (tends_acquire rfl (by decide) ?_)
  refine tends_check (fun _ => tends_printf (tends_throw fun _ h => h.mono (by decide) (by decide)))
    fun _ => ?_
  refine tends_acquire rfl (by decide) ?_
  refine tends_check (fun _ => tends_printf (tends_throw fun _ h => h.mono (by decide) (by decide)))
    fun _ => ?_
  refine tends_acquire rfl (by decide) ?_
  refine tends_check (fun _ => tends_printf ?_) fun _ => ?_
  · exact stopWorkers_tends.weaken (fun _ h => h.mono (by decide) (by decide)) fun _ _ h => h
  refine tends_acquireChecked rfl (by decide) (tends_printf ?_) ?_
  · exact stopWorkers_tends.weaken (fun _ h => h.mono (by decide) (by decide)) fun _ _ h => h
  have hPerf : Tends (partOp answer) (workersUp ⟨ofpUp, ofpUp ∪ {.cli}⟩).Within
      (if applArgs.perfStat then startPerf answer else pure ())
      (fun _ => (workersUp ⟨ofpUp, ofpUp ∪ {.cli, .performance}⟩).Within)
      fun label => label.span.Within := by
    split
    · exact startPerf_tends
    · exact tends_pure fun _ h => h.mono (by decide) (by decide)
  refine (hPerf.weaken (fun _ h => h.mono (by decide) (by decide)) fun _ _ h => h).bind fun _ => ?_
  refine tends_tryAcquire rfl (by decide) (tends_release rfl (by decide) ?_)
  exact tends_pure fun _ h => h.mono (by decide) (by decide)

/-- A warning about the input mode changes nothing that is up. -/
theorem warnPktin_tends : Tends (partOp answer) pre (warnPktin answer params) (fun _ => pre)
    escape := by
  unfold warnPktin
  split
  · exact tends_printf (tends_pure fun _ h => h)
  · exact tends_pure fun _ h => h

theorem warnSync_tends : Tends (partOp answer) pre (warnSync answer params) (fun _ => pre)
    escape := by
  unfold warnSync
  cases params.schedSync with
  | parallel | unknown sync => exact tends_printf (tends_pure fun _ h => h)
  | atomic => exact tends_pure fun _ h => h
  | ordered =>
      have hWarning : Tends (partOp answer) pre
          (if params.pktoutMode ≠ .queue then
            printf answer ("Warning: Packet order is not preserved with " ++
              "ordered RX queues and direct TX queues.\n") []
          else pure ()) (fun _ => pre) escape := by
        split
        · exact tends_callOther rfl (tends_pure fun _ h => h)
        · exact tends_pure fun _ h => h
      exact hWarning.bind fun _ => tends_pure fun _ h => h

/-- What is left by `main`. -/
def Left (code : Int) (held : Finset Part) : Prop :=
  held ⊆ unjoined ∧ (code ≠ exitSuccess → held = ∅)

theorem left_success {code : Int} {held : Finset Part} (h : code = exitSuccess ∧ held ⊆ unjoined) :
    Left code held :=
  ⟨h.2, fun hNot => absurd h.1 hNot⟩

theorem left_none {code : Int} {held : Finset Part} (h : Span.Within ⟨∅, ∅⟩ held) :
    Left code held := by
  obtain rfl := Finset.subset_empty.mp h.2
  exact ⟨Finset.empty_subset _, fun _ => rfl⟩

/-- All of `main` keeps to what is up. -/
theorem main_tends (answer : MainCall → Int) (params : OfpGlobalParam)
    (opts : List ParsedOpt) : Tends (partOp answer) (Span.Within ⟨∅, ∅⟩)
    (main answer params opts) Left fun _ _ => False := by
  unfold main
  split
  · exact tends_pure fun _ h => left_none h
  · refine Tends.catch (?_ : Tends (partOp answer) (Span.Within ⟨∅, ∅⟩) _ Left
      fun label => label.span.Within) fun label => ?_
    · refine setUp_tends.bind fun numWorkers => ?_
      refine warnPktin_tends.bind fun params => warnSync_tends.bind fun params => ?_
      refine work_tends.bind fun _ => ?_
      exact exit0_tends.weaken (fun _ h => h) fun _ _ h => left_success h
    · cases label with
      | exitFailure => exact tends_pure fun _ h => left_none h
      | exit0 => exact exit0_tends.weaken (fun _ h => h) fun _ _ h => left_success h
      | exit1 => exact exit1_tends.weaken (fun _ h => h) fun _ _ h => left_success h

end Proofs

/-- From wherever it ends, `main` has taken down each part that it has set up,
once and after its last use, and has waited for the workers. What can be left
is a thread that it does not wait for, and nothing is when it fails. -/
theorem main_leaves (answer : MainCall → Int) (params : OfpGlobalParam)
    (opts : List ParsedOpt) :
    ∃ code calls held, (main answer params opts).run [] = .ok code calls ∧
      Leaves ∅ (calls.filterMap (partOp answer)) held ∧ Left code held := by
  have hRun := main_tends answer params opts [] ∅ ⟨subset_rfl, subset_rfl⟩
  split at hRun
  · rename_i code after hEnd
    obtain ⟨calls, held, hCalls, hLeaves, hLeft⟩ := hRun
    obtain rfl : after = calls := hCalls
    exact ⟨code, after, held, hEnd, hLeaves, hLeft⟩
  · obtain ⟨calls, held, -, -, hFalse⟩ := hRun
    exact hFalse.elim

end DpdkPerf.FpSock
