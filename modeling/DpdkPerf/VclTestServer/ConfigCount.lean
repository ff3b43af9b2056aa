import DpdkPerf.VclTestServer.Delivery
import DpdkPerf.VclTestServer.Layout

/-! Configs that come one after the other outside a test. Their own bytes are
counted as received, and by that count the server decides whether the next
message may be a config. -/
namespace DpdkPerf.VclTestServer

/-- A message that is a well-formed NONE config. -/
structure Rx.Carries (V : VclTestApi) (rx : Rx) (cfg : VclTestCfg) : Prop where
  msg : rx.msg = V.encode cfg
  magic : cfg.magic = V.ctrlMagic
  test : cfg.test = .none

/-- The message reached `vts_handle_cfg`, and a reply was written. -/
def Handled.Honoured (handled : Handled) : Prop :=
  handled.route = .handleCfg ∧ ∃ reply, sentData handled.calls = [reply]

/-- So many bytes received leave the door open to a config. -/
def OutsideTest (rxBytes totalBytes : UInt64) : Prop := rxBytes < 128 ∨ totalBytes < rxBytes

instance (rxBytes totalBytes : UInt64) : Decidable (OutsideTest rxBytes totalBytes) :=
  inferInstanceAs (Decidable (_ ∨ _))

/-- The count with each config stays outside a test, by the total of the
config before it. -/
def StaysOutside (size : Nat) : Nat → UInt64 → List VclTestCfg → Prop
  | _, _, [] => True
  | n, totalBytes, cfg :: rest =>
      OutsideTest (UInt64.ofNat ((n + 1) * size)) totalBytes ∧
        StaysOutside size (n + 1) cfg.totalBytes rest

/-- The counter stays outside if it does after each config. -/
theorem staysOutside_iff {size n : Nat} {cfg : VclTestCfg} {cfgs : List VclTestCfg} :
    StaysOutside size n cfg.totalBytes cfgs ↔
      ∀ k, (hk : k < cfgs.length) →
        OutsideTest (UInt64.ofNat ((n + k + 1) * size))
          ((cfg :: cfgs).get ⟨k, Nat.lt_succ_of_lt hk⟩).totalBytes := by
  induction cfgs generalizing n cfg with
  | nil => simp [StaysOutside]
  | cons next rest ih =>
      rw [StaysOutside, ih]
      constructor
      · rintro ⟨hFirst, hRest⟩ k hk
        cases k with
        | zero => exact hFirst
        | succ k =>
            have hLater := hRest k (Nat.lt_of_succ_lt_succ hk)
            rwa [Nat.succ_add_eq_add_succ] at hLater
      · intro hAll
        refine ⟨hAll 0 (Nat.succ_pos _), fun k hk => ?_⟩
        have hLater := hAll (k + 1) (Nat.succ_lt_succ hk)
        rwa [Nat.succ_add_eq_add_succ]

section Configs

variable {V : VclTestApi} {i : Nat} {w : Worker} {conn : Conn} {rx : Rx} {cfg : VclTestCfg}

/-- A NONE config is taken for one exactly if the count with its own bytes is
below 128 or above the total of the config before it. -/
theorem route_config (hTest : conn.cfg.test = .none) (hCarries : rx.Carries V cfg)
    (hFits : rx.msg.length ≤ conn.bufSize.toNat) :
    route V false (vtsConnRead false rx.env conn rx.ds) = .handleCfg ↔
      OutsideTest (conn.stats.rxBytes + UInt64.ofNat V.cfgSize) conn.cfg.totalBytes := by
  have hLength : rx.msg.length = V.cfgSize := by rw [hCarries.msg, V.encode_length]
  have hLong : 4 ≤ rx.msg.length := hLength ▸ four_le_cfgSize V
  have hMagic : rx.msg.take 4 = V.magicBytes := by
    rw [hCarries.msg]
    exact V.take_encode cfg hCarries.magic
  have hCount : (conn.view.count rx.msg).rxBytes =
      conn.stats.rxBytes + UInt64.ofNat V.cfgSize := by rw [← hLength]; rfl
  rw [route_eq_handleCfg, expectConfig_read, hasMagic_readConfig V false rx.env conn rx.ds hLong hFits]
  show (conn.view.count rx.msg).expectsConfig = true ∧ decide (rx.msg.take 4 = V.magicBytes) = true ↔ _
  rw [View.expectsConfig, hCount, hMagic]
  simp [View.count, Conn.view, hTest, OutsideTest]

/-- A config that is honoured is applied, up to its buffer sizes. -/
theorem config_applied (nfds : Int) (pool : List Conn) (hAlloc : conn.isAlloc = true)
    (hCarries : rx.Carries V cfg) (hFits : rx.msg.length ≤ conn.bufSize.toNat)
    (hRoute : route V false (vtsConnRead false rx.env conn rx.ds) = .handleCfg) :
    let handled := vtsHandleMessage V false rx.env pool i nfds conn rx.ds
    handled.Honoured ∧ handled.conn.cfg.test = .none ∧
      handled.conn.cfg.totalBytes = cfg.totalBytes ∧
      handled.conn.stats.rxBytes = conn.stats.rxBytes + UInt64.ofNat V.cfgSize := by
  intro handled
  have hLength : rx.msg.length = V.cfgSize := by rw [hCarries.msg, V.encode_length]
  have hDecode : V.decode rx.ds.data = cfg := by
    rw [← V.decode_encode cfg, ← hCarries.msg]
    rfl
  have hApplied : (conn.view.count rx.ds.data).handleCfg V rx.ds.data =
      ((conn.view.count rx.ds.data).applyCfg cfg,
        [V.encode ((conn.view.count rx.ds.data).applyCfg cfg).cfg]) := by
    have hSize : ¬ rx.ds.data.length ≠ V.cfgSize := not_not.mpr hLength
    unfold View.handleCfg
    rw [if_neg hSize, hDecode]
    dsimp only
    rw [hCarries.test]
  obtain ⟨hView, hSent, -⟩ :=
    view_of_handleCfg V false rx.env pool i nfds conn rx.ds hAlloc hFits hRoute
  rw [hApplied] at hView hSent
  refine ⟨⟨(vtsHandleMessage_route ..).trans hRoute, _, hSent⟩, ?_, ?_, ?_⟩
  · exact (congrArg (fun v => v.cfg.test) hView).trans hCarries.test
  · exact congrArg (fun v => v.cfg.totalBytes) hView
  · refine (congrArg View.rxBytes hView).trans ?_
    rw [← hLength]
    rfl

/-- Of a run of NONE configs, on a connection that has counted `n` of them,
all are honoured exactly if none makes the count one of a test that runs. -/
theorem honoured_run {rxs : List Rx} {cfgs : List VclTestCfg} (n : Nat)
    (hSlot : w.connPool[i]? = some conn) (hTest : conn.cfg.test = .none)
    (hBytes : conn.stats.rxBytes = UInt64.ofNat (n * V.cfgSize))
    (hCarries : List.Forall₂ (Rx.Carries V) rxs cfgs)
    (hAdmits : (connection V false i).Admits w rxs) :
    (∀ handled ∈ (connection V false i).trace w rxs, ∃ h ∈ handled, h.Honoured) ↔
      StaysOutside V.cfgSize n conn.cfg.totalBytes cfgs := by
  induction hCarries generalizing w conn n with
  | nil => simp [StaysOutside]
  | @cons rx cfg rest cfgs hFirst _ ih =>
      rw [Machine.admits_cons] at hAdmits
      obtain ⟨⟨-, conn', hSlot', hAlloc, -, hFits⟩, hRest⟩ := hAdmits
      obtain rfl := Option.some.inj (hSlot.symm.trans hSlot')
      have hCount : conn.stats.rxBytes + UInt64.ofNat V.cfgSize =
          UInt64.ofNat ((n + 1) * V.cfgSize) := by
        rw [hBytes, ← UInt64.ofNat_add, Nat.add_mul, Nat.one_mul]
      have hRoute := route_config hTest hFirst (hFits rfl)
      rw [hCount] at hRoute
      rw [Machine.trace_cons, connection_output rx hSlot, List.forall_mem_cons, StaysOutside]
      by_cases hConfig : route V false (vtsConnRead false rx.env conn rx.ds) = .handleCfg
      · obtain ⟨hHonoured, hNone, hTotal, hNext⟩ := config_applied w.nfds w.connPool hAlloc hFirst
          (hFits rfl) hConfig
        rw [hCount] at hNext
        have hMore := ih (n + 1) (connection_slot rx hSlot) hNone hNext hRest
        rw [hTotal] at hMore
        rw [hMore, and_iff_right (hRoute.mp hConfig), and_iff_right ⟨_, rfl, hHonoured⟩]
      · refine iff_of_false ?_ fun h => hConfig (hRoute.mpr h.1)
        rintro ⟨⟨handled, hMem, hHonoured, -⟩, -⟩
        obtain rfl := Option.some.inj hMem
        exact hConfig ((vtsHandleMessage_route ..).symm.trans hHonoured)

/-- On a connection outside a test whose counters are clear, all further NONE
configs are honoured exactly if each comes with less than 128 bytes counted,
its own included, or with more than the total of the config before it. -/
theorem configs_honoured_iff {rxs : List Rx} {cfgs : List VclTestCfg}
    (hSlot : w.connPool[i]? = some conn) (hTest : conn.cfg.test = .none) (hStats : conn.stats = {})
    (hCarries : List.Forall₂ (Rx.Carries V) rxs cfgs)
    (hAdmits : (connection V false i).Admits w rxs) :
    (∀ handled ∈ (connection V false i).trace w rxs, ∃ h ∈ handled, h.Honoured) ↔
      ∀ k, (hk : k < cfgs.length) →
        OutsideTest (UInt64.ofNat ((k + 1) * V.cfgSize))
          ((conn.cfg :: cfgs).get ⟨k, Nat.lt_succ_of_lt hk⟩).totalBytes := by
  have hBytes : conn.stats.rxBytes = UInt64.ofNat (0 * V.cfgSize) := by
    rw [hStats, Nat.zero_mul]
    rfl
  rw [honoured_run 0 hSlot hTest hBytes hCarries hAdmits, staysOutside_iff]
  simp only [Nat.zero_add]

/-- A worker with one client, which has sent nothing yet. -/
def idleWorker : Worker where
  connPool := [{ freshConn packedApi with isAlloc := true, fd := 5 }]
  nfds := 1
  pc := .epollWait

/-- The default config, in a message of its own. -/
def idleConfig : Rx where
  ds := ⟨packedApi.encode defaultCfg, []⟩

theorem idleConfig_carries : idleConfig.Carries packedApi defaultCfg :=
  ⟨List.append_nil _, rfl, rfl⟩

theorem idleConfig_admits :
    (connection packedApi false 0).Admits idleWorker ([idleConfig, idleConfig] ++ [idleConfig]) := by
  decide +kernel

/-- Two configs have less than 128 bytes. -/
theorem configs_honoured_iff_two :
    let rxs : List Rx := [idleConfig, idleConfig]
    (connection packedApi false 0).Admits idleWorker rxs ∧
      ∀ handled ∈ (connection packedApi false 0).trace idleWorker rxs, ∃ h ∈ handled, h.Honoured := by
  intro rxs
  have hSlot : idleWorker.connPool[0]? = some (idleWorker.connPool.head (by decide)) := rfl
  have hCarries : List.Forall₂ (Rx.Carries packedApi) rxs [defaultCfg, defaultCfg] :=
    .cons idleConfig_carries (.cons idleConfig_carries .nil)
  have hAdmits : (connection packedApi false 0).Admits idleWorker rxs :=
    ((Machine.admits_append ..).mp idleConfig_admits).1
  exact ⟨hAdmits,
    (configs_honoured_iff hSlot rfl rfl hCarries hAdmits).mpr (by decide +kernel)⟩

/-- The third config brings the count to 168 of 8192000000 bytes. -/
theorem not_configs_honoured :
    let rxs : List Rx := [idleConfig, idleConfig, idleConfig]
    (∀ rx ∈ rxs, rx.Carries packedApi defaultCfg) ∧ packedApi.cfgSize < 128 ∧
      (connection packedApi false 0).Admits idleWorker rxs ∧
      ¬ ∀ handled ∈ (connection packedApi false 0).trace idleWorker rxs,
        ∃ h ∈ handled, h.Honoured := by
  intro rxs
  have hSlot : idleWorker.connPool[0]? = some (idleWorker.connPool.head (by decide)) := rfl
  have hCarries : List.Forall₂ (Rx.Carries packedApi) rxs [defaultCfg, defaultCfg, defaultCfg] :=
    .cons idleConfig_carries (.cons idleConfig_carries (.cons idleConfig_carries .nil))
  have hAdmits : (connection packedApi false 0).Admits idleWorker rxs := idleConfig_admits
  refine ⟨fun rx hMem => ?_, by decide, hAdmits, ?_⟩
  · simp only [rxs, List.mem_cons, List.not_mem_nil, or_false, or_self] at hMem
    exact hMem ▸ idleConfig_carries
  · rw [honoured_run 0 hSlot rfl rfl hCarries hAdmits]
    rintro ⟨-, -, hThird, -⟩
    exact absurd hThird (by decide)

end Configs

end DpdkPerf.VclTestServer
