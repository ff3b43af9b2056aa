import DpdkPerf.VclTestServer.Protocol

/-! What a client can tell of the state it finds its connection in: the
descriptor, the config up to two of its words, and the count of received
bytes, although none of these is ever sent to it as such. -/
namespace DpdkPerf.VclTestServer

/-- What a client can tell of the treatment of a message: whether it was
taken for a config, and what was sent back. -/
def Reaction.observed (r : Reaction) : Bool × List Bytes :=
  (r.route = .handleCfg, r.sent)

/-- Nothing depends on the two words that an invalid config sets to zero. -/
def VclTestCfg.shown (cfg : VclTestCfg) : VclTestCfg :=
  { cfg with rxbufSize := 0, numWrites := 0 }

def View.shown (v : View) : View :=
  { v with cfg := v.cfg.shown }

section Shown

variable (V : VclTestApi) (v : View) (msg : Bytes)

/-- A config is handled by what a view shows. -/
theorem shown_handleCfg :
    (v.shown.handleCfg V msg).1.shown = (v.handleCfg V msg).1.shown ∧
      (v.shown.handleCfg V msg).2 = (v.handleCfg V msg).2 := by
  unfold View.handleCfg
  split_ifs with hSize
  · exact ⟨rfl, rfl⟩
  · cases hTest : (V.decode msg).test with
    | none => simp only [hTest]; exact ⟨rfl, rfl⟩
    | echo => simp only [hTest]; exact ⟨rfl, rfl⟩
    | uni => simp only [hTest]; exact ⟨rfl, rfl⟩
    | bi => simp only [hTest]; exact ⟨rfl, rfl⟩
    | exit => simp only [hTest]; exact ⟨rfl, trivial⟩
    | unknown code => simp only [hTest]; exact ⟨rfl, trivial⟩

theorem shown_step :
    ((protocol V).next v.shown msg).shown = ((protocol V).next v msg).shown ∧
      ((protocol V).output v.shown msg).observed = ((protocol V).output v msg).observed := by
  have hRoute : (v.shown.count msg).route V msg = (v.count msg).route V msg := rfl
  obtain ⟨hShown, hSent⟩ := shown_handleCfg V (v.count msg) msg
  change ((v.shown.count msg).after V msg).shown = ((v.count msg).after V msg).shown ∧
    Reaction.observed ⟨_, (v.shown.count msg).reply V msg⟩ =
      Reaction.observed ⟨_, (v.count msg).reply V msg⟩
  unfold View.after View.reply
  rw [hRoute]
  cases (v.count msg).route V msg with
  | handleCfg => exact ⟨hShown, congrArg (Prod.mk _) hSent⟩
  | serverRx => exact ⟨rfl, rfl⟩
  | serverEcho => exact ⟨rfl, rfl⟩
  | notDrained => exact ⟨rfl, rfl⟩

end Shown

section Alike

variable {V : VclTestApi} {v v' : View} {msg : Bytes}

/-- Views that show the same cannot be told apart. -/
theorem alike_of_shown (h : v.shown = v'.shown) :
    (protocol V).Alike (protocol V) Reaction.observed v v' := by
  refine Machine.alike_of_simulation (R := fun v v' => v.shown = v'.shown)
    (fun v v' msg hShown _ _ => ?_) h
  obtain ⟨hNext, hOutput⟩ := shown_step V v msg
  obtain ⟨hNext', hOutput'⟩ := shown_step V v' msg
  rw [hShown] at hNext hOutput
  exact ⟨hNext.symm.trans hNext', hOutput.symm.trans hOutput'⟩

/-- A message is a config where one is expected and the magic is in front. -/
theorem View.route_eq_handleCfg :
    v.route V msg = .handleCfg ↔ v.expectsConfig = true ∧ msg.take 4 = V.magicBytes := by
  unfold View.route
  split_ifs with hConfig hTest hAscii
  all_goals simpa using hConfig

/-- A message that one of two connections takes for a config is a config for
the other, if the two are alike, and they stay alike. -/
theorem handleCfg_of_alike (h : (protocol V).Alike (protocol V) Reaction.observed v v')
    (hReceives : v.Receives msg) (hReceives' : v'.Receives msg)
    (hRoute : (v.count msg).route V msg = .handleCfg) :
    ((v.count msg).handleCfg V msg).2 = ((v'.count msg).handleCfg V msg).2 ∧
      (protocol V).Alike (protocol V) Reaction.observed
        ((v.count msg).handleCfg V msg).1 ((v'.count msg).handleCfg V msg).1 := by
  have hOutput := h.output hReceives hReceives'
  have hNext := h.next hReceives hReceives'
  obtain ⟨hSame, hSent⟩ := Prod.mk.inj hOutput
  have hRoute' : (v'.count msg).route V msg = .handleCfg :=
    (decide_eq_decide.mp hSame).mp hRoute
  change (v.count msg).reply V msg = (v'.count msg).reply V msg at hSent
  change (protocol V).Alike (protocol V) _ ((v.count msg).after V msg)
    ((v'.count msg).after V msg) at hNext
  unfold View.reply at hSent
  unfold View.after at hNext
  rw [hRoute, hRoute'] at hSent hNext
  exact ⟨hSent, hNext⟩

/-- The least message with the magic word, and longer ones. -/
def probe (V : VclTestApi) (more : Nat) : Bytes :=
  V.magicBytes ++ List.replicate more 0

@[simp] theorem length_probe (more : Nat) : (probe V more).length = 4 + more := by
  rw [probe, List.length_append, V.magicBytes_length, List.length_replicate]

theorem take_probe (more : Nat) : (probe V more).take 4 = V.magicBytes :=
  List.take_left' V.magicBytes_length

/-- A message of a byte repeated that is no config. -/
theorem exists_chunk (V : VclTestApi) :
    ∃ chunk : Bytes, chunk.length = 4 ∧ chunk.take 4 ≠ V.magicBytes := by
  by_cases hZero : [0, 0, 0, 0] = V.magicBytes
  · refine ⟨[1, 1, 1, 1], rfl, fun hOne => ?_⟩
    have hBoth : ([0, 0, 0, 0] : Bytes) = [1, 1, 1, 1] := hZero.trans hOne.symm
    exact absurd hBoth (by decide)
  · exact ⟨[0, 0, 0, 0], rfl, hZero⟩

theorem encode_injective {cfg cfg' : VclTestCfg} (h : V.encode cfg = V.encode cfg') : cfg = cfg' := by
  rw [← V.decode_encode cfg, h, V.decode_encode]

/-- A connection as it is when a client is accepted into a slot that no one
has used, as far as the client can tell. -/
structure View.Untouched (v : View) : Prop where
  isAlloc : v.isAlloc = true
  test : v.cfg.test = .none
  rxBytes : v.rxBytes = 0
  bufSize : 128 ≤ v.bufSize.toNat

theorem View.Untouched.receives (h : v.Untouched) (hLong : 4 ≤ msg.length)
    (hShort : msg.length < 128) : v.Receives msg :=
  ⟨h.isAlloc, hLong, by have := h.bufSize; omega⟩

/-- Any short message with the magic word is a config on such a connection. -/
theorem View.Untouched.route (h : v.Untouched) (hShort : msg.length < 128)
    (hMagic : msg.take 4 = V.magicBytes) : (v.count msg).route V msg = .handleCfg := by
  refine View.route_eq_handleCfg.mpr ⟨?_, hMagic⟩
  have hBelow : v.rxBytes + UInt64.ofNat msg.length < 128 := by
    rw [h.rxBytes, UInt64.zero_add, UInt64.lt_iff_toNat_lt, UInt64.toNat_ofNat_of_lt' (by
      change msg.length < 2 ^ 64
      omega)]
    exact hShort
  unfold View.expectsConfig View.count
  simp [hBelow]

/-- A connection that no one has used, and one with its buffer size that the
client cannot tell from it. -/
structure Undetected (V : VclTestApi) (v v' : View) : Prop where
  untouched : v.Untouched
  isAlloc : v'.isAlloc = true
  bufSize : v'.bufSize = v.bufSize
  alike : (protocol V).Alike (protocol V) Reaction.observed v v'

/-- A short message with the magic is answered the same by both, and they still
cannot be told apart. -/
theorem Undetected.handleCfg (h : Undetected V v v') (hLong : 4 ≤ msg.length)
    (hShort : msg.length < 128) (hMagic : msg.take 4 = V.magicBytes) :
    ((v.count msg).handleCfg V msg).2 = ((v'.count msg).handleCfg V msg).2 ∧
      (protocol V).Alike (protocol V) Reaction.observed
        ((v.count msg).handleCfg V msg).1 ((v'.count msg).handleCfg V msg).1 := by
  have hReceives := h.untouched.receives hLong hShort
  have hReceives' : v'.Receives msg := ⟨h.isAlloc, hLong, h.bufSize ▸ hReceives.2.2⟩
  exact handleCfg_of_alike h.alike hReceives hReceives' (h.untouched.route hShort hMagic)

/-- The same for a config of the right size. -/
theorem Undetected.config (h : Undetected V v v') (hCfg : V.cfgSize < 128) (cfg : VclTestCfg)
    (hMagic : cfg.magic = V.ctrlMagic) :
    let msg := V.encode cfg
    ((v.count msg).handleCfg V msg).2 = ((v'.count msg).handleCfg V msg).2 ∧
      (protocol V).Alike (protocol V) Reaction.observed
        ((v.count msg).handleCfg V msg).1 ((v'.count msg).handleCfg V msg).1 := by
  have hLength := V.encode_length cfg
  have hLong := four_le_cfgSize V
  exact h.handleCfg (by omega) (by omega) (V.take_encode cfg hMagic)

/-- The reply to a config of the wrong size shows the config the connection
has. -/
theorem Undetected.cfg (h : Undetected V v v') : v.cfg.shown = v'.cfg.shown := by
  obtain ⟨more, hMore, hWrong⟩ : ∃ more, more ≤ 1 ∧ 4 + more ≠ V.cfgSize := by
    by_cases hFour : V.cfgSize = 4
    · exact ⟨1, le_rfl, by omega⟩
    · exact ⟨0, Nat.zero_le 1, fun hSame => hFour hSame.symm⟩
  have hLength := length_probe (V := V) more
  obtain ⟨hSent, -⟩ := h.handleCfg (by omega : 4 ≤ (probe V more).length) (by omega) (take_probe more)
  unfold View.handleCfg at hSent
  rw [if_pos (by rwa [hLength]), if_pos (by rwa [hLength])] at hSent
  exact encode_injective (List.cons.inj hSent).1

/-- The reply to the config that starts a test shows the descriptor. -/
theorem Undetected.fd (h : Undetected V v v') (hCfg : V.cfgSize < 128) : v.fd = v'.fd := by
  let start : VclTestCfg :=
    { V.cfgInit with magic := V.ctrlMagic, test := .uni, ctrlHandle := 0xffffffff }
  have hLength : (V.encode start).length = V.cfgSize := V.encode_length start
  obtain ⟨hSent, -⟩ := h.config hCfg start rfl
  unfold View.handleCfg at hSent
  rw [if_neg (not_not.mpr hLength), if_neg (not_not.mpr hLength), V.decode_encode] at hSent
  have hReply := encode_injective (List.cons.inj hSent).1
  have hHandle : v.fd.toUInt32 = v'.fd.toUInt32 := congrArg VclTestCfg.ctrlHandle hReply
  exact congrArg Int32.ofUInt32 hHandle

/-- A connection on which a config is expected exactly while the count of
received bytes is below 128. -/
structure View.Counting (v : View) : Prop where
  isAlloc : v.isAlloc = true
  test : v.cfg.test = .none
  totalBytes : v.cfg.totalBytes = 0xffffffffffffffff
  bufSize : 7 ≤ v.bufSize.toNat

/-- Below 128 bytes a config is expected. -/
theorem View.Counting.expectsConfig (h : v.Counting) :
    v.expectsConfig = decide (v.rxBytes < 128) := by
  have hMost : ¬ v.rxBytes > v.cfg.totalBytes := by
    rw [h.totalBytes, gt_iff_lt, UInt64.lt_iff_toNat_lt]
    have := v.rxBytes.toNat_lt
    change ¬ 18446744073709551615 < v.rxBytes.toNat
    omega
  unfold View.expectsConfig
  simp [h.test, hMost]

/-- Messages that are no configs only count on such a connection. -/
theorem counting_run {chunk : Bytes} (hLength : chunk.length = 4)
    (hChunk : chunk.take 4 ≠ V.magicBytes) (h : v.Counting) (times : Nat) :
    (protocol V).Admits v (List.replicate times chunk) ∧
      (protocol V).run v (List.replicate times chunk) =
        { v with rxBytes := v.rxBytes + UInt64.ofNat (4 * times) } := by
  induction times generalizing v with
  | zero => exact ⟨Machine.admits_nil v, by simp⟩
  | succ times ih =>
      have hNext : (protocol V).next v chunk = v.count chunk := by
        change (v.count chunk).after V chunk = v.count chunk
        unfold View.after
        cases hRoute : (v.count chunk).route V chunk with
        | handleCfg => exact absurd (View.route_eq_handleCfg.mp hRoute).2 hChunk
        | serverRx => rfl
        | serverEcho => rfl
        | notDrained => rfl
      obtain ⟨hAdmits, hRun⟩ := ih (v := v.count chunk)
        ⟨h.isAlloc, h.test, h.totalBytes, h.bufSize⟩
      rw [List.replicate_succ, Machine.admits_cons, Machine.run_cons, hNext]
      refine ⟨⟨⟨h.isAlloc, hLength.ge, ?_⟩, hAdmits⟩, ?_⟩
      · have := h.bufSize
        omega
      · rw [hRun]
        unfold View.count
        rw [hLength, UInt64.add_assoc, ← UInt64.ofNat_add]
        congr 3
        omega

/-- After such messages one with the magic word is a config as long as the
count is below 128. -/
theorem counting_probe {chunk : Bytes} (hLength : chunk.length = 4)
    (hChunk : chunk.take 4 ≠ V.magicBytes) (h : v.Counting) {times rest : Nat} (hRest : rest < 4)
    {more : UInt64} (hSum : UInt64.ofNat (4 * times) + UInt64.ofNat (4 + rest) = more) :
    let counted := (protocol V).run v (List.replicate times chunk)
    counted.Receives (probe V rest) ∧
      (((protocol V).output counted (probe V rest)).observed.1 = true ↔ v.rxBytes + more < 128) := by
  intro counted
  have hRun : counted = { v with rxBytes := v.rxBytes + UInt64.ofNat (4 * times) } :=
    (counting_run hLength hChunk h times).2
  rw [hRun]
  refine ⟨⟨h.isAlloc, by rw [length_probe]; omega, ?_⟩, ?_⟩
  · have := h.bufSize
    rw [length_probe]
    dsimp only
    omega
  · have hCounted : View.count { v with rxBytes := v.rxBytes + UInt64.ofNat (4 * times) }
        (probe V rest) = { v with rxBytes := v.rxBytes + more } := by
      unfold View.count
      rw [length_probe, UInt64.add_assoc, hSum]
    have hExpects := View.Counting.expectsConfig (v := { v with rxBytes := v.rxBytes + more })
      ⟨h.isAlloc, h.test, h.totalBytes, h.bufSize⟩
    change decide (View.route V (View.count _ (probe V rest)) (probe V rest) = .handleCfg) = true ↔ _
    rw [hCounted, decide_eq_true_iff, View.route_eq_handleCfg, hExpects, decide_eq_true_iff]
    exact and_iff_left (take_probe rest)

/-- On two such connections the same bytes more lead below 128 or not: they
are sent four at a time, and the last of them in a message with the magic
word. -/
theorem below_of_alike (h : (protocol V).Alike (protocol V) Reaction.observed v v')
    (hCounting : v.Counting) (hCounting' : v'.Counting) (more : UInt64) :
    v.rxBytes + more < 128 ↔ v'.rxBytes + more < 128 := by
  obtain ⟨chunk, hLength, hChunk⟩ := exists_chunk V
  -- There are at least four bytes to send if `more` is taken with one wrap of the counter.
  obtain ⟨times, rest, hRest, hTotal⟩ : ∃ times rest, rest < 4 ∧
      4 * times + (4 + rest) = more.toNat + 2 ^ 64 :=
    ⟨(more.toNat + 2 ^ 64) / 4 - 1, (more.toNat + 2 ^ 64) % 4, by omega, by omega⟩
  have hSum : UInt64.ofNat (4 * times) + UInt64.ofNat (4 + rest) = more := by
    rw [← UInt64.ofNat_add, hTotal, UInt64.ofNat_add, UInt64.ofNat_toNat]
    exact UInt64.add_zero more
  obtain ⟨hReceives, hBelow⟩ := counting_probe hLength hChunk hCounting hRest hSum
  obtain ⟨hReceives', hBelow'⟩ := counting_probe hLength hChunk hCounting' hRest hSum
  have hAlike := h.run (counting_run hLength hChunk hCounting times).1
    (counting_run hLength hChunk hCounting' times).1
  have hSame := congrArg Prod.fst (hAlike.output hReceives hReceives')
  rw [← hBelow, ← hBelow', hSame]

/-- Counters that any further bytes take below the bound alike are equal. -/
theorem eq_of_below {a b : UInt64} (h : ∀ more : UInt64, a + more < 128 ↔ b + more < 128) :
    a = b := by
  have hLeft : b + (127 - a) < 128 := by
    rw [← h, UInt64.add_comm, UInt64.sub_add_cancel]
    decide
  have hRight : a + (127 - b) < 128 := by
    rw [h, UInt64.add_comm, UInt64.sub_add_cancel]
    decide
  rw [UInt64.lt_iff_toNat_lt, UInt64.toNat_add, UInt64.toNat_sub] at hLeft hRight
  have hA := a.toNat_lt
  have hB := b.toNat_lt
  apply UInt64.toNat.inj
  change (b.toNat + (2 ^ 64 - a.toNat + 127) % 2 ^ 64) % 2 ^ 64 < 128 at hLeft
  change (a.toNat + (2 ^ 64 - b.toNat + 127) % 2 ^ 64) % 2 ^ 64 < 128 at hRight
  omega

/-- The count of received bytes shows in how many more messages can be sent
before one with the magic word is no config. -/
theorem Undetected.rxBytes (h : Undetected V v v') (hCfg : V.cfgSize < 128) :
    v.rxBytes = v'.rxBytes := by
  let quiet : VclTestCfg := { V.cfgInit with
    magic := V.ctrlMagic, test := .none, rxbufSize := 128, totalBytes := 0xffffffffffffffff }
  have hLength : (V.encode quiet).length = V.cfgSize := V.encode_length quiet
  have hQuiet (v : View) : ((v.count (V.encode quiet)).handleCfg V (V.encode quiet)).1 =
      (v.count (V.encode quiet)).applyCfg quiet := by
    unfold View.handleCfg
    rw [if_neg (not_not.mpr hLength), V.decode_encode]
  have hCounting {v : View} (hAlloc : v.isAlloc = true) :
      ((v.count (V.encode quiet)).applyCfg quiet).Counting := by
    refine ⟨hAlloc, rfl, rfl, ?_⟩
    change 7 ≤ (128 : UInt64).toUInt32.toNat
    decide
  obtain ⟨-, hAlike⟩ := h.config hCfg quiet rfl
  rw [hQuiet, hQuiet] at hAlike
  have hSame := eq_of_below
    (below_of_alike hAlike (hCounting h.untouched.isAlloc) (hCounting h.isAlloc))
  exact (UInt64.add_left_inj _).mp hSame

/-- A connection that no one has used before and any other one with a buffer
of that size are alike exactly if they agree in what is shown. -/
theorem alike_iff_shown (hCfg : V.cfgSize < 128) (hFresh : v.Untouched)
    (hAlloc' : v'.isAlloc = true) (hSize : v'.bufSize = v.bufSize) :
    (protocol V).Alike (protocol V) Reaction.observed v v' ↔
      v.fd = v'.fd ∧ v.cfg.shown = v'.cfg.shown ∧ v.rxBytes = v'.rxBytes := by
  constructor
  · intro hAlike
    have h : Undetected V v v' := ⟨hFresh, hAlloc', hSize, hAlike⟩
    exact ⟨h.fd hCfg, h.cfg, h.rxBytes hCfg⟩
  · rintro ⟨hFd, hShown, hBytes⟩
    apply alike_of_shown
    unfold View.shown
    rw [hFresh.isAlloc, hAlloc', hFd, hSize, hShown, hBytes]

end Alike

end DpdkPerf.VclTestServer
