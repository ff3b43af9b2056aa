import DpdkPerf.Machine.Getopt
import Mathlib.Data.List.TakeWhile
import Mathlib.Algebra.Ring.Int.Defs
import Mathlib.Algebra.Ring.Nat
import Mathlib.Order.Lattice

/-! The command line of vcl-test-server: what `vcl_test_server_process_opts`
makes of it, and the records that `main` allocates and uses for the workers it
asks for. `POSIXLY_CORRECT` is not set in the environment. -/
namespace DpdkPerf.VclTestServer

inductive Proto where
  | tcp
  | udp
  | tls
  deriving DecidableEq, Repr

/-- `vppcom_endpt_t`, with the bytes that its address points to and those of its
port, as they stand in memory. -/
structure Endpoint where
  isIp4 : Bool
  ip : List UInt8
  port : List UInt8
  deriving DecidableEq, Repr

/-- `vcl_test_server_cfg_t` and `use_ds`. -/
structure ServerCfg where
  port : UInt16
  addressIp6 : Bool
  proto : Proto
  workers : UInt8
  endpt : Endpoint
  useDs : Bool
  deriving DecidableEq, Repr

/-- What goes to the standard error output. -/
inductive Message where
  | invalidWorkers (v : Int32)
  | unknownOption (c : Char)
  | unknownCharacter (c : Char)
  | insufficientArguments
  | invalidPort (arg : List Char)
  | usage
  deriving DecidableEq, Repr

def isBlank (c : Char) : Bool := c == ' ' || ('\t' ≤ c && c ≤ '\r')

def isPrint (c : Char) : Bool := ' ' ≤ c && c ≤ '~'

/-- A number is read as a `long`, which ends at both ends, and cut to an `int`. -/
def intOf (x : Int) : Int32 := Int32.ofInt (max (-2 ^ 63) (min (2 ^ 63 - 1) x))

/-- Whether a number is negative, and the text behind its sign. -/
def readSign : List Char → Bool × List Char
  | '-' :: rest => (true, rest)
  | '+' :: rest => (false, rest)
  | text => (false, text)

/-- `sscanf (text, "%d", &v) == 1`, with the value of `v`. -/
def scanInt (text : List Char) : Option Int32 :=
  let (negative, text) := readSign (text.dropWhile isBlank)
  let digits := text.takeWhile Char.isDigit
  let n := Nat.ofDigitChars 10 digits 0
  if digits = [] then none else some (intOf (if negative then -n else n))

def atoi (text : List Char) : Int32 := (scanInt text).getD 0

/-- The options of "6DLsw:". -/
def takes : Char → Option Bool
  | '6' | 'D' | 'L' | 's' => some false
  | 'w' => some true
  | _ => none

/-- The two bytes of a port in network order. -/
def networkBytes (port : UInt16) : List UInt8 := [(port >>> 8).toUInt8, port.toUInt8]

/-- `INADDR_ANY` and `in6addr_any` are all zeros. -/
def vclTestInitEndpointAddr (cfg : ServerCfg) : ServerCfg :=
  { cfg with
    endpt :=
      if cfg.addressIp6 then ⟨false, List.replicate 16 0, networkBytes cfg.port⟩
      else ⟨true, List.replicate 4 0, networkBytes cfg.port⟩ }

/-- One round of the loop over the options. `print_usage_and_exit` leaves
nothing. -/
def processOpt (cfg : ServerCfg) : Opt → Option ServerCfg × List Message
  | .plain '6' => (some { cfg with addressIp6 := true }, [])
  | .plain 'D' => (some { cfg with proto := .udp }, [])
  | .plain 'L' => (some { cfg with proto := .tls }, [])
  | .withArgument 'w' optarg =>
      let v := atoi optarg
      if 1 < v then (some { cfg with workers := v.toUInt32.toUInt8 }, [])
      else (some cfg, [.invalidWorkers v])
  | .plain 's' => (some { cfg with useDs := true }, [])
  | .invalid optopt =>
      (none, [if isPrint optopt then .unknownOption optopt else .unknownCharacter optopt, .usage])
  | _ => (none, [.usage])

def processOptLoop (cfg : ServerCfg) : List Opt → Option ServerCfg × List Message
  | [] => (some cfg, [])
  | o :: options =>
      match processOpt cfg o with
      | (none, messages) => (none, messages)
      | (some cfg, messages) =>
          let r := processOptLoop cfg options
          (r.1, messages ++ r.2)

/-- `argv` without the name of the program. Nothing is left of `cfg` if the
process exits. -/
def vclTestServerProcessOpts (cfg : ServerCfg) (argv : List (List Char)) :
    Option ServerCfg × List Message :=
  let line := getopt takes none argv
  match processOptLoop { cfg with proto := .tcp } line.options with
  | (none, messages) => (none, messages)
  | (some cfg, messages) =>
      match line.operands with
      | [] => (none, messages ++ [.insufficientArguments, .usage])
      | arg :: _ =>
          match scanInt arg with
          | some v =>
              (some (vclTestInitEndpointAddr { cfg with port := v.toUInt32.toUInt16 }), messages)
          | none => (none, messages ++ [.invalidPort arg, .usage])

/-- The records that `main` uses of the `cfg.workers` it allocates: the first,
and those of the loop over the others. -/
def recordsUsed (cfg : ServerCfg) : List Nat := 0 :: List.range' 1 (cfg.workers.toNat - 1)

/-- `cfg` as it is when the options are processed. -/
def ServerCfg.initial (port : UInt16) : ServerCfg where
  port := port
  addressIp6 := false
  proto := .tcp
  workers := 1
  endpt := ⟨false, [], []⟩
  useDs := false

/-- The protocol that an option asks for. -/
def protoOf : Opt → Option Proto
  | .plain 'D' => some .udp
  | .plain 'L' => some .tls
  | _ => none

/-- The number of workers that an option asks for, if it is one that counts. -/
def askedWorkers : Opt → Option Int32
  | .withArgument 'w' optarg => if 1 < atoi optarg then some (atoi optarg) else none
  | _ => none

def warnings : Opt → List Message
  | .withArgument 'w' optarg =>
      if 1 < atoi optarg then [] else [.invalidWorkers (atoi optarg)]
  | _ => []

/-- What the options come to: of those that ask for the same, the last counts. -/
def settled (cfg : ServerCfg) (options : List Opt) : ServerCfg :=
  { cfg with
    addressIp6 := cfg.addressIp6 || options.contains (.plain '6')
    proto := (options.filterMap protoOf).getLast?.getD cfg.proto
    workers := ((options.filterMap askedWorkers).getLast?.map fun v =>
      v.toUInt32.toUInt8).getD cfg.workers
    useDs := cfg.useDs || options.contains (.plain 's') }

section Loop

variable {cfg cfg' : ServerCfg} {options : List Opt} {o : Opt}

/-- Of the options that ask for the same, the last counts. -/
theorem filterMap_cons_last {β γ : Type*} (f : Opt → Option β) (g : β → γ) (o : Opt)
    (options : List Opt) (first : γ) :
    ((options.filterMap f).getLast?.map g).getD ((([o].filterMap f).getLast?.map g).getD first) =
      (((o :: options).filterMap f).getLast?.map g).getD first := by
  cases hValue : f o with
  | none =>
      rw [List.filterMap_cons_none hValue, List.filterMap_cons_none hValue]
      rfl
  | some value =>
      have hCons := List.getLast?_cons (a := value) (l := options.filterMap f)
      rw [List.filterMap_cons_some hValue, List.filterMap_cons_some hValue, hCons]
      cases (options.filterMap f).getLast? <;> rfl

theorem contains_cons_or (name : Char) (o : Opt) (options : List Opt) (first : Bool) :
    (first || [o].contains (.plain name) || options.contains (.plain name)) =
      (first || (o :: options).contains (.plain name)) := by
  rw [Bool.or_assoc, List.contains_cons, List.contains_cons, List.contains_nil, Bool.or_false]

/-- Options settle a configuration one after the other. -/
theorem settled_cons (cfg : ServerCfg) (o : Opt) (options : List Opt) :
    settled (settled cfg [o]) options = settled cfg (o :: options) := by
  have hProto := filterMap_cons_last protoOf id o options cfg.proto
  have hWorkers := filterMap_cons_last askedWorkers (fun v => v.toUInt32.toUInt8) o options
    cfg.workers
  simp only [Option.map_id_fun, id_eq] at hProto
  unfold settled
  simp only [contains_cons_or, hProto, hWorkers]

theorem settled_nil (cfg : ServerCfg) : settled cfg [] = cfg := by
  unfold settled
  simp only [List.contains_nil, Bool.or_false]
  rfl

/-- An option that there is settles its part. -/
theorem processOpt_known (cfg : ServerCfg) (h : o.Known takes) :
    processOpt cfg o = (some (settled cfg [o]), warnings o) := by
  cases o with
  | plain name =>
      have hName : name = '6' ∨ name = 'D' ∨ name = 'L' ∨ name = 's' := by
        have hTakes : takes name = some false := h
        unfold takes at hTakes
        split at hTakes <;> simp_all
      obtain rfl | rfl | rfl | rfl := hName <;> simp [processOpt, settled, protoOf, askedWorkers, warnings]
  | withArgument name optarg =>
      have hName : name = 'w' := by
        have hTakes : takes name = some true := h
        unfold takes at hTakes
        split at hTakes <;> simp_all
      subst hName
      unfold processOpt
      by_cases hMany : 1 < atoi optarg
      · simp [hMany, settled, protoOf, askedWorkers, warnings]
      · simp [hMany, settled, protoOf, askedWorkers, warnings]
  | invalid c => exact h.elim

theorem processOpt_unknown (cfg : ServerCfg) (h : ¬ o.Known takes) :
    (processOpt cfg o).1 = none := by
  unfold processOpt
  split <;> first | rfl | exact absurd rfl h

/-- The loop goes through options that there are, with their warnings in order.
-/
theorem processOptLoop_known (cfg : ServerCfg) (h : ∀ o ∈ options, o.Known takes) :
    processOptLoop cfg options = (some (settled cfg options), options.flatMap warnings) := by
  induction options generalizing cfg with
  | nil =>
      rw [settled_nil]
      rfl
  | cons o options ih =>
      rw [List.forall_mem_cons] at h
      rw [processOptLoop, processOpt_known cfg h.1]
      dsimp only
      rw [ih _ h.2, settled_cons]
      rfl

/-- If the loop comes through, all options are known ones. -/
theorem known_of_processOptLoop (h : (processOptLoop cfg options).1 = some cfg') :
    ∀ o ∈ options, o.Known takes := by
  induction options generalizing cfg with
  | nil => exact nofun
  | cons o options ih =>
      rw [processOptLoop] at h
      by_cases hKnown : o.Known takes
      · rw [processOpt_known cfg hKnown] at h
        exact List.forall_mem_cons.mpr ⟨hKnown, ih h⟩
      · cases hOpt : processOpt cfg o with
        | mk left messages =>
            have hNone := processOpt_unknown cfg hKnown
            rw [hOpt] at hNone
            obtain rfl : left = none := hNone
            rw [hOpt] at h
            cases h

end Loop

section Accepted

variable {cfg cfg' : ServerCfg} {argv operands : List (List Char)} {options : List Opt}
  {arg : List Char} {messages : List Message} {v : Int32}

/-- A command line of the grammar with a port is accepted, and means what it
says. -/
theorem processOpts_writes (cfg : ServerCfg) (hWrites : Writes takes argv options (arg :: operands))
    (hPort : scanInt arg = some v) :
    vclTestServerProcessOpts cfg argv =
      (some (vclTestInitEndpointAddr
        { settled { cfg with proto := .tcp } options with port := v.toUInt32.toUInt16 }),
        options.flatMap warnings) := by
  have hLine := (hWrites.getopt_eq rfl).1
  unfold vclTestServerProcessOpts
  rw [hLine]
  dsimp only
  rw [processOptLoop_known _ hWrites.known]
  dsimp only
  rw [hPort]

/-- What is accepted is written in the grammar, with a port. -/
theorem writes_of_processOpts (h : (vclTestServerProcessOpts cfg argv).1 = some cfg') :
    ∃ options arg operands v, Writes takes argv options (arg :: operands) ∧
      scanInt arg = some v := by
  unfold vclTestServerProcessOpts at h
  cases hLine : getopt takes none argv with
  | mk options operands =>
      rw [hLine] at h
      dsimp only at h
      cases hLoop : processOptLoop { cfg with proto := .tcp } options with
      | mk left messages =>
          rw [hLoop] at h
          cases left with
          | none => cases h
          | some settled =>
              have hKnown := known_of_processOptLoop (congrArg Prod.fst hLoop)
              have hNone : NoneInvalid options := fun c hMem => hKnown (.invalid c) hMem
              have hWrites := (getopt_eq_iff rfl).mp ⟨hLine, hNone⟩
              cases operands with
              | nil => cases h
              | cons arg operands =>
                  dsimp only at h
                  cases hPort : scanInt arg with
                  | none =>
                      rw [hPort] at h
                      cases h
                  | some v => exact ⟨options, arg, operands, v, hWrites, hPort⟩

/-- The server starts exactly with the command lines that are written as the
options allow, with a number for the port. Each means what the last of its
options says, and there is a warning for each number of workers below two. -/
theorem vclTestServerProcessOpts_iff (cfg : ServerCfg) (argv : List (List Char)) (cfg' : ServerCfg)
    (messages : List Message) :
    vclTestServerProcessOpts cfg argv = (some cfg', messages) ↔
      ∃ options arg operands v, Writes takes argv options (arg :: operands) ∧
        scanInt arg = some v ∧
        cfg' = vclTestInitEndpointAddr
          { settled { cfg with proto := .tcp } options with port := v.toUInt32.toUInt16 } ∧
        messages = options.flatMap warnings := by
  constructor
  · intro h
    obtain ⟨options, arg, operands, v, hWrites, hPort⟩ :=
      writes_of_processOpts (congrArg Prod.fst h)
    rw [processOpts_writes cfg hWrites hPort, Prod.mk.injEq, Option.some.injEq] at h
    exact ⟨options, arg, operands, v, hWrites, hPort, h.1.symm, h.2.symm⟩
  · rintro ⟨options, arg, operands, v, hWrites, hPort, rfl, rfl⟩
    exact processOpts_writes cfg hWrites hPort

end Accepted

section Records

/-- Record 0 is used in any case, so there must be one. -/
theorem recordsUsed_lt_iff (cfg : ServerCfg) :
    (∀ i ∈ recordsUsed cfg, i < cfg.workers.toNat) ↔ cfg.workers ≠ 0 := by
  unfold recordsUsed
  have hZero : cfg.workers = 0 ↔ cfg.workers.toNat = 0 := UInt8.toNat_inj.symm
  rw [List.forall_mem_cons, Ne, hZero]
  constructor
  · rintro ⟨hFirst, -⟩
    omega
  · intro hSome
    refine ⟨by omega, fun i hMem => ?_⟩
    rw [List.mem_range'_1] at hMem
    omega

/-- A number of workers is cut off to none at the multiples of 256. -/
theorem toUInt8_eq_zero_iff {v : Int32} (h : 1 < v) :
    v.toUInt32.toUInt8 = 0 ↔ v.toInt % 256 = 0 := by
  have hLe : 0 ≤ v := Int32.le_of_lt (Int32.lt_trans (by decide) h)
  have hNonneg : 0 ≤ v.toInt := Int32.le_iff_toInt_le.mp hLe
  have hByte := UInt32.toNat_toUInt8 v.toUInt32
  rw [Int32.toNat_toUInt32_of_le hLe, ← Int32.toNat_toInt] at hByte
  rw [← UInt8.toNat_inj, hByte]
  show _ = 0 ↔ _
  omega

/-- Only numbers above one are asked for. -/
theorem one_lt_of_askedWorkers {options : List Opt} {v : Int32}
    (h : (options.filterMap askedWorkers).getLast? = some v) : 1 < v := by
  obtain ⟨o, -, hAsked⟩ := List.mem_filterMap.mp (List.mem_of_getLast? h)
  unfold askedWorkers at hAsked
  split at hAsked
  · split_ifs at hAsked with hMany
    exact Option.some.inj hAsked ▸ hMany
  · cases hAsked

/-- `main` uses only records that it has allocated exactly if the number of
workers it is asked for last is no multiple of 256. -/
theorem recordsUsed_allocated_iff (port : UInt16) {argv : List (List Char)} {cfg : ServerCfg}
    (h : (vclTestServerProcessOpts (.initial port) argv).1 = some cfg) :
    (∀ i ∈ recordsUsed cfg, i < cfg.workers.toNat) ↔
      ∀ v ∈ ((getopt takes none argv).options.filterMap askedWorkers).getLast?,
        v.toInt % 256 ≠ 0 := by
  obtain ⟨options, arg, operands, v, hWrites, hPort⟩ := writes_of_processOpts h
  have hLine := (hWrites.getopt_eq rfl).1
  rw [processOpts_writes _ hWrites hPort, Option.some.injEq] at h
  subst h
  rw [recordsUsed_lt_iff, hLine]
  show ((options.filterMap askedWorkers).getLast?.map fun v => v.toUInt32.toUInt8).getD 1 ≠ 0 ↔ _
  cases hLast : (options.filterMap askedWorkers).getLast? with
  | none => exact iff_of_true (by decide) nofun
  | some asked =>
      have hZero := toUInt8_eq_zero_iff (one_lt_of_askedWorkers hLast)
      show asked.toUInt32.toUInt8 ≠ 0 ↔ ∀ v ∈ some asked, v.toInt % 256 ≠ 0
      simp only [Option.mem_some_iff, forall_eq', ne_eq, hZero]

/-- The server of "-w 256 5000". -/
def wrappedCfg : ServerCfg :=
  { ServerCfg.initial 0 with
    port := 5000
    workers := 0
    endpt := ⟨true, [0, 0, 0, 0], networkBytes 5000⟩ }

/-- With `-w 256` nothing is allocated, and record 0 is used. -/
theorem recordsUsed_allocated_iff_wrapped :
    ¬ ∀ i ∈ recordsUsed wrappedCfg, i < wrappedCfg.workers.toNat := by
  intro hAll
  have hAccepted : (vclTestServerProcessOpts (.initial 0)
      ["-w".toList, "256".toList, "5000".toList]).1 = some wrappedCfg := by
    decide +kernel
  exact (recordsUsed_allocated_iff 0 hAccepted).mp hAll 256 (by decide +kernel) (by decide)

end Records

section RoundTrip

theorem intOf_natCast {n : Nat} (h : n < 2 ^ 31) : intOf n = Int32.ofNat n := by
  unfold intOf
  rw [min_eq_right (by omega), max_eq_right (by omega)]
  exact Int32.ofInt_eq_ofNat

/-- A digit is neither a blank nor a sign. -/
theorem isDigit_plain {c : Char} (h : c.isDigit = true) :
    isBlank c = false ∧ c ≠ '-' ∧ c ≠ '+' := by
  have hLow : '0' ≤ c := by
    simp only [Char.isDigit, Bool.and_eq_true, decide_eq_true_eq] at h
    exact h.1
  have hBelow (d : Char) (hd : d < '0') : c ≠ d := by
    rintro rfl
    exact absurd hLow (Char.not_le.mpr hd)
  refine ⟨?_, hBelow '-' (by decide), hBelow '+' (by decide)⟩
  have hSpace : (c == ' ') = false := beq_false_of_ne (hBelow ' ' (by decide))
  have hReturn : ¬ c ≤ '\r' := fun hLe => absurd (Char.le_trans hLow hLe) (by decide)
  unfold isBlank
  rw [hSpace, decide_eq_false hReturn, Bool.and_false]
  rfl

/-- `%d` reads back what was printed. -/
theorem scanInt_toDigits {n : Nat} (h : n < 2 ^ 31) :
    scanInt (Nat.toDigits 10 n) = some (Int32.ofNat n) := by
  have hDigits : ∀ c ∈ Nat.toDigits 10 n, c.isDigit = true := fun c hMem =>
    Nat.isDigit_of_mem_toDigits (by decide) (by decide) hMem
  have hSelf : (Nat.toDigits 10 n).takeWhile Char.isDigit = Nat.toDigits 10 n :=
    List.takeWhile_eq_self_iff.mpr hDigits
  have hValue : Nat.ofDigitChars 10 (Nat.toDigits 10 n) 0 = n := Nat.ofDigitChars_ten_toDigits
  cases hText : Nat.toDigits 10 n with
  | nil => exact absurd hText Nat.toDigits_ne_nil
  | cons c rest =>
      rw [hText] at hDigits hSelf hValue
      obtain ⟨hBlank, hMinus, hPlus⟩ := isDigit_plain (hDigits c List.mem_cons_self)
      have hSign : readSign (c :: rest) = (false, c :: rest) := by
        unfold readSign
        split
        · exact absurd (List.cons.inj ‹_›).1 hMinus
        · exact absurd (List.cons.inj ‹_›).1 hPlus
        · rfl
      have hText : (c :: rest).dropWhile isBlank = c :: rest := by
        rw [List.dropWhile_cons, hBlank, if_neg Bool.false_ne_true]
      unfold scanInt
      rw [hText, hSign]
      dsimp only
      rw [hSelf, if_neg (List.cons_ne_nil c rest), hValue, if_neg Bool.false_ne_true,
        intOf_natCast h]

/-- A command line for a server. -/
def commandLine (cfg : ServerCfg) : List (List Char) :=
  (if cfg.addressIp6 then [['-', '6']] else []) ++
    ((if cfg.proto = .udp then [['-', 'D']] else []) ++
    ((if cfg.proto = .tls then [['-', 'L']] else []) ++
    ((if 1 < cfg.workers then [['-', 'w'], Nat.toDigits 10 cfg.workers.toNat] else []) ++
    ((if cfg.useDs then [['-', 's']] else []) ++ [Nat.toDigits 10 cfg.port.toNat]))))

/-- The options on it. -/
def optionsOf (cfg : ServerCfg) : List Opt :=
  (if cfg.addressIp6 then [.plain '6'] else []) ++
    ((if cfg.proto = .udp then [.plain 'D'] else []) ++
    ((if cfg.proto = .tls then [.plain 'L'] else []) ++
    ((if 1 < cfg.workers then [.withArgument 'w' (Nat.toDigits 10 cfg.workers.toNat)] else []) ++
    ((if cfg.useDs then [.plain 's'] else []) ++ []))))

/-- The command line of a configuration is in the grammar. -/
theorem commandLine_writes (cfg : ServerCfg) :
    Writes takes (commandLine cfg) (optionsOf cfg) [Nat.toDigits 10 cfg.port.toNat] := by
  have hPort : Writes takes [Nat.toDigits 10 cfg.port.toNat] [] [Nat.toDigits 10 cfg.port.toNat] := by
    refine .operand (.inr fun hDash => ?_) .nil
    have hDigit := Nat.isDigit_of_mem_toDigits (by decide) (by decide) (List.mem_of_head? hDash)
    exact (isDigit_plain hDigit).2.1 rfl
  exact ((((hPort.plain rfl).withArgument rfl _).plain rfl).plain rfl).plain rfl

/-- A port comes back from an int. -/
theorem toUInt16_ofNat (port : UInt16) :
    (Int32.ofNat port.toNat).toUInt32.toUInt16 = port := by
  have hWord : (Int32.ofNat port.toNat).toUInt32 = UInt32.ofNat port.toNat := rfl
  have hLt := port.toNat_lt
  rw [hWord, ← UInt16.toNat_inj, UInt32.toNat_toUInt16, UInt32.toNat_ofNat']
  omega

theorem toUInt8_ofNat (workers : UInt8) :
    (Int32.ofNat workers.toNat).toUInt32.toUInt8 = workers := by
  have hWord : (Int32.ofNat workers.toNat).toUInt32 = UInt32.ofNat workers.toNat := rfl
  have hLt := workers.toNat_lt
  rw [hWord, ← UInt8.toNat_inj, UInt32.toNat_toUInt8, UInt32.toNat_ofNat']
  omega

theorem atoi_toDigits {n : Nat} (h : n < 2 ^ 31) : atoi (Nat.toDigits 10 n) = Int32.ofNat n := by
  unfold atoi
  rw [scanInt_toDigits h]
  rfl

/-- More than one worker is a number that can be asked for. -/
theorem one_lt_atoi {workers : UInt8} (h : 1 < workers) :
    1 < atoi (Nat.toDigits 10 workers.toNat) := by
  have hLt := workers.toNat_lt
  rw [atoi_toDigits (by omega), Int32.lt_iff_toInt_lt, Int32.toInt_ofNat_of_lt (by omega)]
  exact Int.ofNat_lt.mpr (UInt8.lt_iff_toNat_lt.mp h)

/-- The command line of a configuration leads to no warning. -/
theorem warnings_optionsOf (cfg : ServerCfg) : (optionsOf cfg).flatMap warnings = [] := by
  unfold optionsOf
  by_cases hMany : 1 < cfg.workers
  · simp [hMany, apply_ite (List.flatMap warnings), warnings, one_lt_atoi hMany]
  · simp [hMany, apply_ite (List.flatMap warnings), warnings]

theorem contains_optionsOf (cfg : ServerCfg) :
    (optionsOf cfg).contains (.plain '6') = cfg.addressIp6 ∧
      (optionsOf cfg).contains (.plain 's') = cfg.useDs := by
  constructor
  · rw [List.contains_eq_mem]
    simp [optionsOf]
  · rw [List.contains_eq_mem]
    simp [optionsOf]

theorem protoOf_optionsOf (cfg : ServerCfg) :
    ((optionsOf cfg).filterMap protoOf).getLast?.getD .tcp = cfg.proto := by
  have hWorkers (optarg : List Char) : protoOf (.withArgument 'w' optarg) = none := rfl
  have hAddress : protoOf (.plain '6') = none := rfl
  have hDs : protoOf (.plain 's') = none := rfl
  unfold optionsOf
  simp only [List.filterMap_append, apply_ite (List.filterMap protoOf), List.filterMap_cons,
    hWorkers, hAddress, hDs, List.filterMap_nil, ite_self, List.nil_append, List.append_nil]
  cases cfg.proto <;> rfl

theorem askedWorkers_optionsOf {cfg : ServerCfg} (hWorkers : cfg.workers ≠ 0) :
    (((optionsOf cfg).filterMap askedWorkers).getLast?.map fun v => v.toUInt32.toUInt8).getD 1 =
      cfg.workers := by
  have hPlain (name : Char) : askedWorkers (.plain name) = none := rfl
  unfold optionsOf
  by_cases hMany : 1 < cfg.workers
  · have hLt := cfg.workers.toNat_lt
    have hAsked : askedWorkers (.withArgument 'w' (Nat.toDigits 10 cfg.workers.toNat)) =
        some (Int32.ofNat cfg.workers.toNat) := by
      show (if _ then _ else _) = _
      rw [if_pos (one_lt_atoi hMany), atoi_toDigits (by omega)]
    simp only [List.filterMap_append, apply_ite (List.filterMap askedWorkers),
      List.filterMap_cons, hPlain, hAsked, List.filterMap_nil, ite_self, List.nil_append,
      List.append_nil, if_pos hMany]
    exact toUInt8_ofNat cfg.workers
  · have hOne : cfg.workers.toNat = 1 := by
      have hSome : cfg.workers.toNat ≠ 0 := fun hZero => hWorkers (UInt8.toNat_inj.mp hZero)
      have hFew : ¬ 1 < cfg.workers.toNat := fun hLt => hMany (UInt8.lt_iff_toNat_lt.mpr hLt)
      omega
    simp only [List.filterMap_append, apply_ite (List.filterMap askedWorkers),
      List.filterMap_cons, hPlain, List.filterMap_nil, ite_self, List.nil_append,
      List.append_nil, if_neg hMany]
    exact (UInt8.toNat_inj.mp hOne).symm

theorem settled_optionsOf (port : UInt16) {cfg : ServerCfg} (hWorkers : cfg.workers ≠ 0) :
    { settled { ServerCfg.initial port with proto := .tcp } (optionsOf cfg) with
      port := cfg.port } = { cfg with endpt := (ServerCfg.initial port).endpt } := by
  obtain ⟨hAddress, hDs⟩ := contains_optionsOf cfg
  have hProto := protoOf_optionsOf cfg
  have hAsked := askedWorkers_optionsOf hWorkers
  simp only [settled, ServerCfg.initial, hAddress, hDs, hProto, hAsked, Bool.false_or]

/-- Whatever a server with a worker is to do, there is a command line for it, and
it is accepted without a warning. -/
theorem vclTestServerProcessOpts_commandLine (port : UInt16) {cfg : ServerCfg}
    (hWorkers : cfg.workers ≠ 0) :
    vclTestServerProcessOpts (.initial port) (commandLine cfg) =
      (some (vclTestInitEndpointAddr cfg), []) := by
  have hLt := cfg.port.toNat_lt
  have hPort : scanInt (Nat.toDigits 10 cfg.port.toNat) = some (Int32.ofNat cfg.port.toNat) :=
    scanInt_toDigits (by omega)
  rw [processOpts_writes _ (commandLine_writes cfg) hPort, toUInt16_ofNat, settled_optionsOf port hWorkers,
    warnings_optionsOf]
  rfl

/-- Two workers, TLS over IPv6. -/
theorem vclTestServerProcessOpts_commandLine_two :
    vclTestServerProcessOpts (.initial 0) (commandLine ⟨5000, true, .tls, 2, ⟨true, [], []⟩, false⟩) =
      (some ⟨5000, true, .tls, 2, ⟨false, List.replicate 16 0, [0x13, 0x88]⟩, false⟩, []) := by
  rw [vclTestServerProcessOpts_commandLine 0 (by decide)]
  rfl

end RoundTrip

end DpdkPerf.VclTestServer
