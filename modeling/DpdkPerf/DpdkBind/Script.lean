import DpdkPerf.DpdkBind.Ports
import DpdkPerf.DpdkBind.Rebind

/-! The script as a whole: `do_loadinfo` brings together what lspci, sysfs and
portid tell of the devices of a host, `-t` prints it as a table, and `-c` gives
a device to another driver. -/
namespace DpdkPerf.DpdkBind

/-- A device with what lspci prints of it and its network interfaces. -/
structure Device where
  record : Record
  net : List NetDir

/-- The devices are in the order of `/sys/bus/pci/devices/*`. -/
structure Host where
  devices : List Device
  ports : List Port

namespace Host

variable (host : Host) (files : Text → List Text)

/-- The directories in `/sys/bus/pci/devices/$1/net`. -/
def net (pci : Text) : List NetDir :=
  ((host.devices.find? fun d => d.record.pci.text = pci).map Device.net).getD []

/-- The loop of `nics_info` over the devices. -/
def nicsInfo (dpdkNics : SparseArray Text) : SparseArray Text :=
  host.devices.foldl
    (fun nics d => storeDevice (DpdkBind.mac files host.net dpdkNics) nics d.record.lines) ∅

/-- `do_loadinfo`, with `init_dpdk` behind it. Without a result the script has
ended in it, with status 1. -/
def doLoadinfo : Option (SparseArray Text) :=
  (parseDpdkNics files (portid host.ports)).map (host.nicsInfo files)

end Host

/-- `$old_dri`, which is empty for a device without a driver. -/
def oldDri (text : Text) : Option Text := if text = [] then none else some text

/-- `do_change_bind $2 $3 ${nics[$(($i+3))]}`, for the words that these expand
to. The function knows the first three, and one that is missing is empty. -/
def callChangeBind (fails : Write → Bool) (args : List Text) : Script Text Unit :=
  doChangeBind fails (args[0]?.getD []) (args[1]?.getD []) args[2]?

/-- The loop of `-c`, from `i` on, up to its `exit $hr`. -/
def changeBind (files : Text → List Text) (fails : Nat → Write → Bool) (nics : SparseArray Text)
    (pci dri : Text) (i : Nat) (hr : UInt8) : Script Text UInt8 :=
  if i ≤ nics.count then
    if testEq files (element nics i) pci then
      callChangeBind (fails i)
          (unquoted files pci ++ unquoted files dri ++ unquoted files (element nics (i + 3))) >>=
        fun _ => changeBind files fails nics pci dri (i + 6) 0
    else changeBind files fails nics pci dri (i + 6) hr
  else pure hr
termination_by nics.count + 1 - i

/-- What `nics_info` takes for the module and for the driver. -/
def Record.stored (r : Record) : Text × Text :=
  match r.subsystem, r.driver with
  | some _, some driver => (r.moduleName, driver.text)
  | none, none => ([], [])
  | _, _ => ([], r.moduleName)

/-- The names that lspci prints are no patterns for file names. -/
structure Device.Literal (d : Device) : Prop where
  pci : d.record.pci.Literal
  driver : ∀ driver, d.record.driver = some driver → driver.Literal
  modules : ∀ module ∈ d.record.modules, module.Literal
  net : ∀ dir ∈ d.net, dir.Literal

namespace Host

structure Literal (host : Host) : Prop where
  devices : ∀ d ∈ host.devices, d.Literal
  ports : ∀ port ∈ host.ports, port.Literal

variable (host : Host)

/-- The Ethernet devices. -/
def nicDevices : List Device := host.devices.filter fun d => HasEthernet d.record.firstLine

/-- The elements of a device with this module and driver. -/
def nic (d : Device) (found : Text × Text) : Nic :=
  let (mac, ifs, dpdk) := knownMac host.net host.ports d.record.pci.text
  ⟨d.record.pci.text, mac, found.1, found.2, dpdk, ifs⟩

/-- What is stored for a device. -/
def storedNic (d : Device) : Nic := host.nic d d.record.stored

end Host

section Stored

variable {r : Record}

/-- What awk finds in a device's lines is stored. -/
theorem nicsInfo_stored {mac : Text → Text × Text × Text} {nics : List Text}
    (hEthernet : HasEthernet r.firstLine) :
    nicsInfo mac nics r.lines = nics ++ nicFields mac r.pci.text r.stored.1 r.stored.2 := by
  unfold Record.stored
  cases hSubsystem : r.subsystem with
  | none =>
      cases hDriver : r.driver with
      | none => exact Record.stored_neither hEthernet (Record.optionalLines_eq hSubsystem hDriver)
      | some driver =>
          exact Record.stored_one hEthernet (Record.optionalLines_eq hSubsystem hDriver)
  | some text =>
      cases hDriver : r.driver with
      | none => exact Record.stored_one hEthernet (Record.optionalLines_eq hSubsystem hDriver)
      | some driver => exact Record.stored_both hEthernet hSubsystem hDriver

/-- With all lines there it is the truth. -/
theorem stored_of_complete (hSubsystem : r.subsystem ≠ none) (hDriver : r.driver ≠ none) :
    r.stored = (r.moduleName, r.driverName) := by
  obtain ⟨text, hText⟩ := Option.ne_none_iff_exists'.mp hSubsystem
  obtain ⟨driver, hName⟩ := Option.ne_none_iff_exists'.mp hDriver
  unfold Record.stored
  rw [hText, hName, Record.driverName_eq hName]
  rfl

/-- The driver is the right one if no line is missing before another. -/
theorem stored_driver_of_aligned (hAligned : r.Aligned) : r.stored.2 = r.driverName := by
  cases hDriver : r.driver with
  | some driver =>
      have hSubsystem : r.subsystem ≠ none := hAligned.subsystem (Or.inl (by simp [hDriver]))
      rw [stored_of_complete hSubsystem (by simp [hDriver])]
  | none =>
      have hModules : r.modules = [] := by
        by_contra hSome
        exact hAligned.driver hSome hDriver
      have hName : r.moduleName = [] := Record.moduleName_eq_nil_iff.mpr hModules
      have hNone : r.driverName = [] := Record.driverName_eq hDriver
      unfold Record.stored
      rw [hDriver, hNone]
      cases r.subsystem with
      | none => rfl
      | some text => exact hName

end Stored

section Names

variable {d : Device}

/-- A module's name is no pattern. -/
theorem Device.Literal.moduleName (h : d.Literal) : d.record.moduleName.any isGlob = false := by
  by_cases hModules : d.record.modules = []
  · rw [Record.moduleName_eq_nil_iff.mpr hModules]
    rfl
  · rw [Record.moduleName_of_ne_nil hModules]
    exact h.modules _ (List.getLast_mem hModules)

theorem Device.Literal.driverName (h : d.Literal) : d.record.driverName.any isGlob = false := by
  cases hDriver : d.record.driver with
  | none =>
      rw [Record.driverName_eq hDriver]
      rfl
  | some driver =>
      rw [Record.driverName_eq hDriver]
      exact h.driver driver hDriver

/-- A driver's name has no blanks. -/
theorem solid_driverName (r : Record) : Solid isBlank r.driverName := by
  cases hDriver : r.driver with
  | none =>
      rw [Record.driverName_eq hDriver]
      exact Record.solid_nil
  | some driver =>
      rw [Record.driverName_eq hDriver]
      exact driver.solid

/-- What is stored is one of the names of the record, or nothing. -/
theorem stored_of_names {P : Text → Prop} (r : Record) (hEmpty : P []) (hModule : P r.moduleName)
    (hDriver : P r.driverName) : P r.stored.1 ∧ P r.stored.2 := by
  unfold Record.stored
  cases r.subsystem with
  | none =>
      cases r.driver with
      | none => exact ⟨hEmpty, hEmpty⟩
      | some driver => exact ⟨hEmpty, hModule⟩
  | some text =>
      cases hName : r.driver with
      | none => exact ⟨hEmpty, hModule⟩
      | some driver =>
          rw [Record.driverName_eq hName] at hDriver
          exact ⟨hModule, hDriver⟩

end Names

namespace Host

variable {host : Host} {files : Text → List Text}

/-- The interfaces of a device have plain names too. -/
theorem Literal.net (h : host.Literal) (pci : Text) : ∀ dir ∈ host.net pci, dir.Literal := by
  intro dir hMem
  unfold Host.net at hMem
  cases hFind : host.devices.find? fun d => d.record.pci.text = pci with
  | none =>
      rw [hFind] at hMem
      exact absurd hMem List.not_mem_nil
  | some d =>
      rw [hFind] at hMem
      exact (h.devices d (List.mem_of_find?_eq_some hFind)).net dir hMem

theorem Literal.nicDevice (h : host.Literal) {d : Device} (hMem : d ∈ host.nicDevices) :
    d.Literal :=
  h.devices d (List.mem_of_mem_filter hMem)

variable {dpdkNics : SparseArray Text}

/-- `mac` finds for a device what there is to find out about it. -/
theorem nicFields_eq (h : host.Literal) (files : Text → List Text)
    (hPorts : dpdkNics.Holds (host.ports.flatMap Port.fields)) {d : Device} (hDevice : d.Literal)
    (found : Text × Text) :
    nicFields (DpdkBind.mac files host.net dpdkNics) d.record.pci.text found.1 found.2 =
      (host.nic d found).fields := by
  unfold nicFields
  rw [mac_eq files hDevice.pci.whole h.ports (h.net _) hPorts]
  rfl

/-- One device, after any others. -/
theorem nicsInfo_eq (h : host.Literal) (files : Text → List Text)
    (hPorts : dpdkNics.Holds (host.ports.flatMap Port.fields)) {d : Device} (hDevice : d.Literal)
    (nics : List Text) :
    DpdkBind.nicsInfo (DpdkBind.mac files host.net dpdkNics) nics d.record.lines =
      nics ++ (if HasEthernet d.record.firstLine then (host.storedNic d).fields else []) := by
  by_cases hEthernet : HasEthernet d.record.firstLine
  · rw [if_pos hEthernet, nicsInfo_stored hEthernet, nicFields_eq h files hPorts hDevice]
    rfl
  · rw [if_neg hEthernet, List.append_nil, Record.nicsInfo_other hEthernet]

/-- The array has the six elements of each Ethernet device, in order. -/
theorem nicsInfo_holds (h : host.Literal) (files : Text → List Text)
    (hPorts : dpdkNics.Holds (host.ports.flatMap Port.fields)) :
    (host.nicsInfo files dpdkNics).Holds
      ((host.nicDevices.map host.storedNic).flatMap Nic.fields) := by
  have hDevices := h.devices
  unfold Host.nicsInfo nicDevices
  generalize host.devices = devices at hDevices ⊢
  induction devices using List.reverseRecOn with
  | nil => exact SparseArray.holds_empty
  | append_singleton before d ih =>
      rw [List.forall_mem_append, List.forall_mem_singleton] at hDevices
      have hDevice := storeDevice_holds (ih hDevices.1)
        (DpdkBind.mac files host.net dpdkNics) d.record.lines
      rw [nicsInfo_eq h files hPorts hDevices.2] at hDevice
      rw [List.foldl_append, List.filter_append, List.map_append, List.flatMap_append]
      by_cases hEthernet : HasEthernet d.record.firstLine
      · rw [if_pos hEthernet] at hDevice
        simpa [hEthernet] using hDevice
      · rw [if_neg hEthernet] at hDevice
        simpa [hEthernet] using hDevice

/-- Where no file has a name of one letter, `do_loadinfo` comes to its end. -/
theorem doLoadinfo_holds (h : host.Literal) {files : Text → List Text}
    (hFiles : NoLetterFiles files) :
    ∃ nics, host.doLoadinfo files = some nics ∧
      nics.Holds ((host.nicDevices.map host.storedNic).flatMap Nic.fields) := by
  obtain ⟨dpdkNics, hParse, hPorts⟩ := parseDpdkNics_holds hFiles h.ports
  refine ⟨host.nicsInfo files dpdkNics, ?_, nicsInfo_holds h files hPorts⟩
  unfold doLoadinfo
  rw [hParse]
  rfl

/-- A NIC with names that are no patterns can stand in the table. -/
theorem nic_wellFormed (h : host.Literal) {d : Device} (hDevice : d.Literal) {found : Text × Text}
    (hSolid : Solid isBlank found.1 ∧ Solid isBlank found.2)
    (hPlain : found.1.any isGlob = false ∧ found.2.any isGlob = false) :
    (host.nic d found).WellFormed := by
  obtain ⟨hMac, hIfs, hDpdk⟩ := whole_knownMac h.ports (h.net d.record.pci.text)
  have hPci : Whole d.record.pci.text := hDevice.pci.whole
  constructor
  · intro field hMem
    simp only [Nic.fields, nic, List.mem_cons, List.not_mem_nil, or_false] at hMem
    obtain rfl | rfl | rfl | rfl | rfl | rfl := hMem
    exacts [hPci.solid, hMac.solid, hSolid.1, hSolid.2, hDpdk.solid, hIfs.solid]
  · intro field hMem
    simp only [Nic.fields, nic, List.mem_cons, List.not_mem_nil, or_false] at hMem
    obtain rfl | rfl | rfl | rfl | rfl | rfl := hMem
    exacts [hPci.literal, hMac.literal, hPlain.1, hPlain.2, hDpdk.literal, hIfs.literal]
  · exact hPci.ne_nil
  · exact hMac.ne_nil
  · exact hDpdk.ne_nil

/-- The elements stored for a device make a row of the table. -/
theorem storedNic_wellFormed (h : host.Literal) {d : Device} (hDevice : d.Literal) :
    (host.storedNic d).WellFormed :=
  nic_wellFormed h hDevice
    (stored_of_names d.record Record.solid_nil d.record.solid_moduleName (solid_driverName _))
    (stored_of_names (P := fun text => text.any isGlob = false) d.record rfl hDevice.moduleName
      hDevice.driverName)

theorem storedNics_wellFormed (h : host.Literal) :
    ∀ nic ∈ host.nicDevices.map host.storedNic, nic.WellFormed := by
  intro nic hMem
  obtain ⟨d, hDevice, rfl⟩ := List.mem_map.mp hMem
  exact storedNic_wellFormed h (h.nicDevice hDevice)

end Host

section ChangeBind

variable {files : Text → List Text} {fails : Nat → Write → Bool} {nics : SparseArray Text}
  {pci dri other : Text} {before rest : List Nic} {hr : UInt8}

theorem Nic.WellFormed.whole_pci {nic : Nic} (h : nic.WellFormed) : Whole nic.pci :=
  ⟨h.pci, h.solid _ (by simp [Nic.fields]), h.plain _ (by simp [Nic.fields])⟩

/-- The loop goes past the devices with other addresses. -/
theorem changeBind_skip (files : Text → List Text) (fails : Nat → Write → Bool) (dri : Text)
    (hPci : Whole pci) (before skipped rest : List Nic) (hr : UInt8)
    (h : nics.Holds ((before ++ skipped ++ rest).flatMap Nic.fields))
    (hOthers : ∀ nic ∈ skipped, Whole nic.pci ∧ nic.pci ≠ pci) :
    changeBind files fails nics pci dri (6 * before.length + 1) hr =
      changeBind files fails nics pci dri (6 * (before ++ skipped).length + 1) hr := by
  induction skipped generalizing before with
  | nil => rw [List.append_nil]
  | cons nic skipped ih =>
      rw [List.forall_mem_cons] at hOthers
      have hCount : nics.count = 6 * (before ++ nic :: skipped ++ rest).length :=
        h.count_blocks Nic.length_fields
      simp only [List.length_append, List.length_cons] at hCount
      have hSplit : before ++ nic :: skipped = before ++ [nic] ++ skipped := by simp
      have hBlocks : nics.Holds ((before ++ nic :: (skipped ++ rest)).flatMap Nic.fields) := by
        simpa using h
      have hElement : element nics (6 * before.length + 1) = nic.pci :=
        element_eq hBlocks (k := 0) (by decide)
      have hOther : ¬ testEq files (element nics (6 * before.length + 1)) pci = true := by
        rw [hElement, hOthers.1.1.testEq_iff hPci]
        exact hOthers.1.2
      have hNext : 6 * before.length + 1 + 6 = 6 * (before ++ [nic]).length + 1 := by
        rw [List.length_append, List.length_singleton]
        omega
      rw [hSplit] at h ⊢
      rw [changeBind, if_pos (by omega), if_neg hOther, hNext]
      exact ih (before ++ [nic]) h hOthers.2

theorem changeBind_end (h : nics.Holds (before.flatMap Nic.fields)) :
    changeBind files fails nics pci dri (6 * before.length + 1) hr = pure hr := by
  have hCount : nics.count = 6 * before.length := h.count_blocks Nic.length_fields
  rw [changeBind, if_neg (by omega)]

/-- An address that no device has. -/
theorem changeBind_unknown (fails : Nat → Write → Bool) (dri : Text) (hr : UInt8)
    (hPci : Whole pci) (h : nics.Holds (rest.flatMap Nic.fields))
    (hNone : ∀ nic ∈ rest, Whole nic.pci ∧ nic.pci ≠ pci) :
    changeBind files fails nics pci dri 1 hr = pure hr := by
  have hSkip := changeBind_skip files fails dri hPci [] rest [] hr (by simpa using h) hNone
  rw [List.nil_append] at hSkip
  exact hSkip.trans (changeBind_end h)

/-- A script that ends early has failed. -/
def FailsNonzero {α : Type} (script : Script Text α) : Prop :=
  ∀ s status s', script.run s = .error status s' → status ≠ 0

/-- A script fails with a status if its parts do. -/
theorem FailsNonzero.bind {α β : Type} {first : Script Text α} {next : α → Script Text β}
    (hFirst : FailsNonzero first) (hNext : ∀ a, FailsNonzero (next a)) :
    FailsNonzero (first >>= next) := by
  intro s status s' hRun
  rw [EStateM.run_bind] at hRun
  cases hCall : first.run s with
  | ok a t =>
      rw [hCall] at hRun
      exact hNext a t status s' hRun
  | error failed t =>
      rw [hCall] at hRun
      injection hRun with hStatus
      exact hStatus ▸ hFirst s failed t hCall

end ChangeBind

namespace Host

variable {host : Host} {d : Device}

/-- `-c`, up to its `exit`. -/
def changeBind (host : Host) (files : Text → List Text) (fails : Nat → Write → Bool)
    (pci dri : Text) : Script Text UInt8 :=
  match host.doLoadinfo files with
  | none => throw 1
  | some nics => DpdkBind.changeBind files fails nics pci dri 1 1

/-- An address that no Ethernet device has: the status is 1 and nothing is
written. -/
theorem changeBind_unknown (h : host.Literal) {files : Text → List Text}
    (hFiles : NoLetterFiles files) (fails : Nat → Write → Bool) {pci : Text} (hPci : Whole pci)
    (dri : Text) (hNone : ∀ d ∈ host.nicDevices, d.record.pci.text ≠ pci) :
    host.changeBind files fails pci dri = pure 1 := by
  obtain ⟨nics, hLoad, hHolds⟩ := doLoadinfo_holds h hFiles
  unfold changeBind
  rw [hLoad]
  refine DpdkBind.changeBind_unknown fails dri 1 hPci hHolds fun nic hNic => ?_
  have hWhole := (storedNics_wellFormed h nic hNic).whole_pci
  obtain ⟨d, hMem, rfl⟩ := List.mem_map.mp hNic
  exact ⟨hWhole, hNone d hMem⟩

/-- It does for a device with no line missing before another. -/
theorem stored_driver_iff {dri : Text} (hAligned : d.record.Aligned) (hDri : dri ≠ []) :
    d.record.stored.2 = dri ↔ d.record.driver.map Word.text = some dri := by
  rw [stored_driver_of_aligned hAligned]
  cases hDriver : d.record.driver with
  | none =>
      rw [Record.driverName_eq hDriver]
      exact iff_of_false hDri.symm nofun
  | some driver =>
      rw [Record.driverName_eq hDriver]
      exact Option.some_inj.symm

end Host

end DpdkPerf.DpdkBind
