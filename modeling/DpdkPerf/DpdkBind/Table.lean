import DpdkPerf.DpdkBind.Nics
import DpdkPerf.Machine.Columns
import DpdkPerf.Machine.SparseArray

/-! The table of NICs. The array has six elements for each of them, and
`show_table` gives them to `printf` without quotes: an element that is empty
is no argument at all. -/
namespace DpdkPerf.DpdkBind

/-- The elements that `nics_info` adds for a device, in their order. -/
structure Nic where
  pci : Text
  mac : Text
  mod : Text
  dri : Text
  dpdk : Text
  ifs : Text
  deriving DecidableEq, Repr

def Nic.fields (nic : Nic) : List Text :=
  [nic.pci, nic.mac, nic.mod, nic.dri, nic.dpdk, nic.ifs]

/-- The assignments at the end of the loop in `nics_info`. -/
def storeNic (nics : SparseArray Text) (nic : Nic) : SparseArray Text :=
  let len := nics.count
  let nics := nics.insert (len + 1) nic.pci
  let nics := nics.insert (len + 2) nic.mac
  let nics := nics.insert (len + 3) nic.mod
  let nics := nics.insert (len + 4) nic.dri
  let nics := nics.insert (len + 5) nic.dpdk
  nics.insert (len + 6) nic.ifs

/-- The array after the assignments for these devices. -/
def storeNics (nics : List Nic) : SparseArray Text := nics.foldl storeNic ∅

/-- `${nics[i]}`, which is empty where there is no element. -/
def element (nics : SparseArray Text) (i : Nat) : Text := (nics.lookup i).getD []

/-- A word with one of these is a pattern for file names. -/
def isGlob (c : Char) : Bool := c == '*' || c == '?' || c == '['

/-- The arguments that an expansion without quotes gives. `files` are the
names that a pattern is replaced with. `IFS` is still that of `nics_info`. -/
def unquoted (files : Text → List Text) (text : Text) : List Text :=
  (words isSpace text).flatMap fun word => if word.any isGlob then files word else [word]

/-- The columns of `"%-12s\t%-17s\t%-10s\t%-10s\t%-10s\t%-10s\n"`. -/
def tableFormat : List (Nat × Char) :=
  [(12, '\t'), (17, '\t'), (10, '\t'), (10, '\t'), (10, '\t'), (10, '\n')]

/-- `printf` with that format, which is used again while there are arguments. -/
def printf (args : List Text) : Text :=
  printRow ' ' tableFormat args ++
    (if tableFormat.length < args.length then printf (args.drop tableFormat.length) else [])
termination_by args.length
decreasing_by
  have hSix : tableFormat.length = 6 := rfl
  rw [List.length_drop]
  omega

def showRow (files : Text → List Text) (nics : SparseArray Text) (i : Nat) : Text :=
  printf (unquoted files (element nics i) ++ unquoted files (element nics (i + 1)) ++
    unquoted files (element nics (i + 2)) ++ unquoted files (element nics (i + 3)) ++
    unquoted files (element nics (i + 4)) ++ unquoted files (element nics (i + 5)))

/-- The loop of `show_table` from `i` on. -/
def showRows (files : Text → List Text) (nics : SparseArray Text) (i : Nat) : Text :=
  if i ≤ nics.count then showRow files nics i ++ showRows files nics (i + 6) else []
termination_by nics.count + 1 - i

def tableHead : Text :=
  printf ["PCI".toList, "MAC".toList, "MODULE".toList, "DRIVER".toList, "ISDPDK".toList,
    "IFS or DPDK DRIVER".toList] ++ List.replicate 100 '-' ++ ['\n']

def showTable (files : Text → List Text) (nics : SparseArray Text) : Text :=
  tableHead ++ showRows files nics 1

/-- The table with a row for each device and each element in its column. -/
def nicsTable (nics : List Nic) : Text :=
  tableHead ++ nics.flatMap fun nic => printRow ' ' tableFormat nic.fields

/-- Elements have no blanks and are no patterns, and a device has an address
on the bus, a MAC address or what stands for it, and a flag. -/
structure Nic.WellFormed (nic : Nic) : Prop where
  solid : ∀ field ∈ nic.fields, Solid isBlank field
  plain : ∀ field ∈ nic.fields, field.any isGlob = false
  pci : nic.pci ≠ []
  mac : nic.mac ≠ []
  dpdk : nic.dpdk ≠ []

variable {files : Text → List Text} {nics : List Nic} {nic : Nic} {a : SparseArray Text}
  {values : List Text}

/-- A device adds its six elements. -/
theorem storeNic_holds (h : a.Holds values) (nic : Nic) :
    (storeNic a nic).Holds (values ++ nic.fields) := by
  have hPci := h.push (congrArg (· + 1) h.count) nic.pci
  have hMac := hPci.push (k := a.count + 2) (by simp [h.count]) nic.mac
  have hMod := hMac.push (k := a.count + 3) (by simp [h.count]) nic.mod
  have hDri := hMod.push (k := a.count + 4) (by simp [h.count]) nic.dri
  have hDpdk := hDri.push (k := a.count + 5) (by simp [h.count]) nic.dpdk
  have hIfs := hDpdk.push (k := a.count + 6) (by simp [h.count]) nic.ifs
  have hFields : values ++ [nic.pci] ++ [nic.mac] ++ [nic.mod] ++ [nic.dri] ++ [nic.dpdk] ++
      [nic.ifs] = values ++ nic.fields := by
    simp [Nic.fields]
  rw [hFields] at hIfs
  exact hIfs

/-- All devices add theirs in order. -/
theorem storeNics_holds (nics : List Nic) :
    (storeNics nics).Holds (nics.flatMap Nic.fields) := by
  induction nics using List.reverseRecOn with
  | nil => exact SparseArray.holds_empty
  | append_singleton before nic ih =>
      rw [storeNics, List.foldl_append, List.flatMap_append]
      exact storeNic_holds ih nic

/-- One round of `nics_info`, for a device whose record lspci prints in these
lines. -/
def storeDevice (mac : Text → Text × Text × Text) (nics : SparseArray Text) (lines : List Text) :
    SparseArray Text :=
  let (pci, dri, mod) := readThree (awkLines 1 {} lines).print
  if pci = [] then nics
  else
    let (mac, ifs, dpdk) := mac pci
    storeNic nics ⟨pci, mac, mod, dri, dpdk, ifs⟩

/-- The array holds what the round adds to the elements so far. -/
theorem storeDevice_holds (h : a.Holds values) (mac : Text → Text × Text × Text)
    (lines : List Text) : (storeDevice mac a lines).Holds (nicsInfo mac values lines) := by
  unfold storeDevice nicsInfo
  by_cases hNone : (readThree (awkLines 1 {} lines).print).1 = []
  · simpa [hNone] using h
  · simp only [hNone, if_false]
    exact storeNic_holds h _

/-- Of texts that are whole words the expansion gives those that are not
empty. -/
theorem unquoted_eq {text : Text} (hSolid : Solid isBlank text) (hPlain : text.any isGlob = false) :
    unquoted files text = [text].filter (· ≠ []) := by
  by_cases hEmpty : text = []
  · subst hEmpty
    rfl
  · have hWords : words isSpace text = [text] := words_of_solid (solid_isSpace hSolid) hEmpty
    rw [unquoted, hWords, List.flatMap_singleton, hPlain]
    simp [hEmpty]

/-- Unquoted words that are empty vanish, and the others stay as they are. -/
theorem flatMap_unquoted {texts : List Text} (hSolid : ∀ text ∈ texts, Solid isBlank text)
    (hPlain : ∀ text ∈ texts, text.any isGlob = false) :
    texts.flatMap (unquoted files) = texts.filter (· ≠ []) := by
  induction texts with
  | nil => rfl
  | cons text rest ih =>
      rw [List.forall_mem_cons] at hSolid hPlain
      rw [List.flatMap_cons, unquoted_eq hSolid.1 hPlain.1, ih hSolid.2 hPlain.2,
        ← List.filter_append, List.singleton_append]

theorem printf_few {args : List Text} (h : args.length ≤ 6) :
    printf args = printRow ' ' tableFormat args := by
  have hSix : tableFormat.length = 6 := rfl
  rw [printf, if_neg (by omega), List.append_nil]

/-- The arguments of a row. -/
def Nic.args (nic : Nic) : List Text := nic.fields.filter (· ≠ [])

/-- The row that is printed for the elements from `i` on. -/
theorem showRow_eq (hWell : nic.WellFormed) {i : Nat}
    (hRow : ∀ k < 6, element a (i + k) = nic.fields[k]?.getD []) :
    showRow files a i = printRow ' ' tableFormat nic.args := by
  have hElements : element a i = nic.pci ∧ element a (i + 1) = nic.mac ∧
      element a (i + 2) = nic.mod ∧ element a (i + 3) = nic.dri ∧ element a (i + 4) = nic.dpdk ∧
      element a (i + 5) = nic.ifs :=
    ⟨hRow 0 (by decide), hRow 1 (by decide), hRow 2 (by decide), hRow 3 (by decide),
      hRow 4 (by decide), hRow 5 (by decide)⟩
  obtain ⟨hPci, hMac, hMod, hDri, hDpdk, hIfs⟩ := hElements
  have hUnquoted : unquoted files nic.pci ++ unquoted files nic.mac ++ unquoted files nic.mod ++
      unquoted files nic.dri ++ unquoted files nic.dpdk ++ unquoted files nic.ifs =
        nic.fields.flatMap (unquoted files) := by
    simp [Nic.fields]
  have hFew : nic.args.length ≤ 6 := List.length_filter_le _ nic.fields
  rw [showRow, hPci, hMac, hMod, hDri, hDpdk, hIfs, hUnquoted,
    flatMap_unquoted hWell.solid hWell.plain]
  exact printf_few hFew

theorem Nic.length_fields (nic : Nic) : nic.fields.length = 6 := rfl

/-- The elements of a device follow those of the devices before it. -/
theorem element_eq {before rest : List Nic}
    (h : a.Holds ((before ++ nic :: rest).flatMap Nic.fields)) {k : Nat} (hk : k < 6) :
    element a (6 * before.length + 1 + k) = nic.fields[k]?.getD [] := by
  rw [element, h.lookup_block Nic.length_fields hk]

/-- The loop prints a row for each device that is left. -/
theorem showRows_eq (before rest : List Nic) (hWell : ∀ nic ∈ rest, nic.WellFormed)
    (h : a.Holds ((before ++ rest).flatMap Nic.fields)) :
    showRows files a (6 * before.length + 1) =
      rest.flatMap fun nic => printRow ' ' tableFormat nic.args := by
  have hCount : a.count = 6 * (before.length + rest.length) := by
    rw [h.count_blocks Nic.length_fields, List.length_append]
  induction rest generalizing before with
  | nil =>
      rw [List.length_nil] at hCount
      rw [showRows, if_neg (by omega)]
      rfl
  | cons nic rest ih =>
      rw [List.forall_mem_cons] at hWell
      rw [List.length_cons] at hCount
      have hNext : 6 * before.length + 1 + 6 = 6 * (before ++ [nic]).length + 1 := by
        rw [List.length_append, List.length_singleton]
        omega
      have hSplit : before ++ nic :: rest = before ++ [nic] ++ rest := by simp
      have hRest : showRows files a (6 * (before ++ [nic]).length + 1) = _ :=
        ih (before ++ [nic]) hWell.2 (hSplit ▸ h) (by simp; omega)
      rw [showRows, if_pos (by omega), showRow_eq hWell.1 fun k hk => element_eq h hk, hNext, hRest]
      rfl

/-- The columns of a row are right exactly if the module and the driver are
not empty: they come before the flag, which is not. -/
theorem Nic.WellFormed.columns_iff (hWell : nic.WellFormed) :
    (∀ k < 6, nic.args[k]?.getD [] = nic.fields[k]?.getD []) ↔ nic.mod ≠ [] ∧ nic.dri ≠ [] := by
  have hArgs : nic.args = nic.pci :: nic.mac ::
      ([nic.mod, nic.dri].filter (· ≠ []) ++ nic.dpdk :: [nic.ifs].filter (· ≠ [])) := by
    have hSplit : nic.fields = [nic.pci, nic.mac] ++ [nic.mod, nic.dri] ++ [nic.dpdk] ++ [nic.ifs] :=
      rfl
    have hAddresses : [nic.pci, nic.mac].filter (· ≠ []) = [nic.pci, nic.mac] := by
      simp [hWell.pci, hWell.mac]
    have hFlag : [nic.dpdk].filter (· ≠ []) = [nic.dpdk] := by
      simp [hWell.dpdk]
    rw [Nic.args, hSplit, List.filter_append, List.filter_append, List.filter_append, hAddresses,
      hFlag, List.append_assoc, List.append_assoc]
    rfl
  by_cases hMod : nic.mod = []
  · refine iff_of_false (fun hColumns => ?_) fun h => h.1 hMod
    -- the driver or the flag stands in the column of the module
    have hThird := hColumns 2 (by decide)
    by_cases hDri : nic.dri = []
    · simp [hArgs, Nic.fields, hMod, hDri, hWell.dpdk] at hThird
    · simp [hArgs, Nic.fields, hMod, hDri] at hThird
  · by_cases hDri : nic.dri = []
    · refine iff_of_false (fun hColumns => ?_) fun h => h.2 hDri
      have hFourth := hColumns 3 (by decide)
      simp [hArgs, Nic.fields, hMod, hDri, hWell.dpdk] at hFourth
    · refine iff_of_true (fun k hk => ?_) ⟨hMod, hDri⟩
      by_cases hIfs : nic.ifs = []
      · have hFields : nic.fields = nic.args ++ [[]] := by
          simp [hArgs, Nic.fields, hMod, hDri, hIfs]
        rw [hFields, List.getElem?_append]
        split
        · rfl
        · rw [List.getElem?_eq_none (by omega), List.getElem?_singleton]
          split <;> rfl
      · have hFields : nic.fields = nic.args := by
          simp [hArgs, Nic.fields, hMod, hDri, hIfs]
        rw [hFields]

/-- The texts of a device fit the columns. -/
theorem Nic.WellFormed.fits (hWell : nic.WellFormed) :
    ∀ field ∈ nic.fields, Fits ' ' tableFormat field := by
  intro field hMem
  have hNot : ∀ c, isBlank c = true → c ∉ field := by
    intro c hBlank hChar
    rw [hWell.solid field hMem c hChar] at hBlank
    cases hBlank
  refine ⟨hNot ' ' rfl, fun column hColumn => hNot _ ?_⟩
  revert column
  decide

/-- The rows are those of the table exactly if each is. -/
theorem rows_eq_iff (hWell : ∀ nic ∈ nics, nic.WellFormed) :
    (nics.flatMap fun nic => printRow ' ' tableFormat nic.args) =
        (nics.flatMap fun nic => printRow ' ' tableFormat nic.fields) ↔
      ∀ nic ∈ nics, nic.mod ≠ [] ∧ nic.dri ≠ [] := by
  induction nics with
  | nil => simp
  | cons nic rest ih =>
      rw [List.forall_mem_cons] at hWell
      rw [List.flatMap_cons, List.flatMap_cons, List.forall_mem_cons, ← ih hWell.2,
        ← hWell.1.columns_iff]
      exact printRow_append_inj (by decide)
        (fun field hMem => hWell.1.fits field (List.mem_of_mem_filter hMem)) hWell.1.fits

theorem showTable_storeNics (files : Text → List Text) (hWell : ∀ nic ∈ nics, nic.WellFormed) :
    showTable files (storeNics nics) =
      tableHead ++ nics.flatMap fun nic => printRow ' ' tableFormat nic.args :=
  congrArg (tableHead ++ ·) (showRows_eq [] nics hWell (storeNics_holds nics))

/-- `show_table` prints the table of the devices exactly if each of them has a
module and a driver. -/
theorem showTable_eq_iff (files : Text → List Text) (hWell : ∀ nic ∈ nics, nic.WellFormed) :
    showTable files (storeNics nics) = nicsTable nics ↔
      ∀ nic ∈ nics, nic.mod ≠ [] ∧ nic.dri ≠ [] := by
  rw [showTable_storeNics files hWell, nicsTable, List.append_cancel_left_eq]
  exact rows_eq_iff hWell

/-- A device that the kernel drives, and one that dpdk does. -/
def drivenNics : List Nic :=
  [⟨"0000:00:03.0".toList, "52:54:00:12:34:56".toList, "virtio_pci".toList, "virtio-pci".toList,
      "false".toList, "eth0".toList⟩,
    ⟨"0000:01:00.0".toList, "90:e2:ba:00:00:01".toList, "ixgbe".toList, "igb_uio".toList,
      "true".toList, []⟩]

/-- Two devices with drivers are shown as they are. -/
theorem showTable_eq_iff_driven :
    showTable (fun _ => []) (storeNics drivenNics) = nicsTable drivenNics := by
  have hWell : ∀ nic ∈ drivenNics, nic.WellFormed := by
    intro nic hMem
    simp only [drivenNics, List.mem_cons, List.not_mem_nil, or_false] at hMem
    rcases hMem with rfl | rfl
    · exact ⟨by decide, by decide, by decide, by decide, by decide⟩
    · exact ⟨by decide, by decide, by decide, by decide, by decide⟩
  exact (showTable_eq_iff _ hWell).mpr (by decide)

/-- A device without a driver, whose module `nics_info` has taken for one: the
table has the driver in the column of the module. -/
theorem not_showTable_eq :
    let nics : List Nic :=
      [⟨"0000:01:00.0".toList, "-".toList, [], "ixgbe".toList, "false".toList, "-".toList⟩]
    (∀ nic ∈ nics, nic.WellFormed) ∧
      ¬ showTable (fun _ => []) (storeNics nics) = nicsTable nics := by
  intro nics
  have hWell : ∀ nic ∈ nics, nic.WellFormed := by
    intro nic hMem
    obtain rfl := List.mem_singleton.mp hMem
    exact ⟨by decide, by decide, by decide, by decide, by decide⟩
  refine ⟨hWell, ?_⟩
  rw [showTable_storeNics _ hWell, nicsTable, List.append_cancel_left_eq, rows_eq_iff hWell]
  decide

end DpdkPerf.DpdkBind
