import DpdkPerf.Machine.Words
import Mathlib.Data.List.Infix

/-! What dpdk-bind finds out about a NIC: an awk program picks fields of the
output of lspci by their line numbers, and `read` splits what it prints. -/
namespace DpdkPerf.DpdkBind

abbrev Text := List Char

/-- The characters awk splits a line at, and those of `IFS` in `nics_info`. -/
def isBlank (c : Char) : Bool := c == ' ' || c == '\t' || c == '\n'

def isSpace (c : Char) : Bool := c == ' '

/-- The variables of the awk program. -/
structure Awk where
  pci : Text := []
  dri : Text := []
  mod : Text := []
  deriving DecidableEq, Repr

/-- `index ($1, "Ethernet") != 0`. -/
def HasEthernet (line : Text) : Prop := "Ethernet".toList <:+: line

instance (line : Text) : Decidable (HasEthernet line) :=
  inferInstanceAs (Decidable ("Ethernet".toList <:+: line))

/-- `a[length (a)]`. -/
def lastWord (line : Text) : Text := (words isBlank line).getLastD []

/-- The rule of the awk program, for the lines from number `nr` on. Its `exit`
leaves the lines and goes to the END rule. -/
def awkLines : Nat → Awk → List Text → Awk
  | _, v, [] => v
  | nr, v, line :: rest =>
      if nr = 1 ∧ ¬ HasEthernet line then v
      else
        awkLines (nr + 1)
          { pci := if nr = 1 then (words isBlank line).headD [] else v.pci
            dri := if nr = 3 then lastWord line else v.dri
            mod := if nr = 4 then lastWord line else v.mod } rest

/-- The END rule: `if (pci) print (pci, dri, mod)`. An address is no number,
so it counts as true unless it is empty. -/
def Awk.print (v : Awk) : Text :=
  if v.pci = [] then [] else v.pci ++ ' ' :: (v.dri ++ ' ' :: v.mod)

/-- `read pci dri mod`: the last variable takes the rest of the line. -/
def readThree (text : Text) : Text × Text × Text :=
  let (pci, rest) := readWord isSpace text
  let (dri, rest) := readWord isSpace rest
  (pci, dri, strip isSpace rest)

/-- The six elements of the array for a NIC. `mac` is what `read mac ifs dpdk`
takes from the function of that name. -/
def nicFields (mac : Text → Text × Text × Text) (pci mod dri : Text) : List Text :=
  let (mac, ifs, dpdk) := mac pci
  [pci, mac, mod, dri, dpdk, ifs]

/-- One round of `nics_info`, for a device whose record lspci prints in these
lines. -/
def nicsInfo (mac : Text → Text × Text × Text) (nics : List Text) (lines : List Text) :
    List Text :=
  let (pci, dri, mod) := readThree (awkLines 1 {} lines).print
  if pci = [] then nics else nics ++ nicFields mac pci mod dri

/-- An address or a name. -/
structure Word where
  text : Text
  ne_nil : text ≠ []
  solid : Solid isBlank text
  /-- `read` would take a backslash for an escape. -/
  plain : '\\' ∉ text

/-- A record of `lspci -Dks`. A device without modules has no line for them. -/
structure Record where
  pci : Word
  /-- The class and the name of the device. -/
  description : Text
  subsystem : Option Text
  driver : Option Word
  modules : List Word

namespace Record

def firstLine (r : Record) : Text := r.pci.text ++ ' ' :: r.description

def subsystemLine (text : Text) : Text := "\tSubsystem: ".toList ++ text

def driverLine (driver : Word) : Text := "\tKernel driver in use:".toList ++ ' ' :: driver.text

/-- The modules are separated by a comma and a blank. -/
def modulesLine (modules : List Word) : Text :=
  "\tKernel modules:".toList ++ ' ' :: ", ".toList.intercalate (modules.map Word.text)

def modulesLines (r : Record) : List Text :=
  if r.modules = [] then [] else [modulesLine r.modules]

/-- The lines after the first. -/
def optionalLines (r : Record) : List Text :=
  r.subsystem.toList.map subsystemLine ++ r.driver.toList.map driverLine ++ r.modulesLines

def lines (r : Record) : List Text := r.firstLine :: r.optionalLines

/-- The value of the line "Kernel driver in use". -/
def driverName (r : Record) : Text := (r.driver.map Word.text).getD []

/-- The last word of the line "Kernel modules". -/
def moduleName (r : Record) : Text := (r.modules.getLast?.map Word.text).getD []

/-- What `nics_info` is to append for the record. -/
def nic (mac : Text → Text × Text × Text) (r : Record) : List Text :=
  if HasEthernet r.firstLine then nicFields mac r.pci.text r.moduleName r.driverName else []

/-- No line stands where the awk program expects another one. -/
structure Aligned (r : Record) : Prop where
  subsystem : r.driver ≠ none ∨ r.modules ≠ [] → r.subsystem ≠ none
  driver : r.modules ≠ [] → r.driver ≠ none

end Record

/-- A line after the first matters if it is the third or the fourth. -/
theorem awkLines_cons {nr : Nat} (v : Awk) (line : Text) (rest : List Text) (h : nr ≠ 1) :
    awkLines nr v (line :: rest) =
      awkLines (nr + 1)
        { v with
          dri := if nr = 3 then lastWord line else v.dri
          mod := if nr = 4 then lastWord line else v.mod } rest := by
  conv_lhs => unfold awkLines
  rw [if_neg (fun hFirst => h hFirst.1), if_neg h]

/-- From the fifth line on awk looks at nothing. -/
theorem awkLines_tail {nr : Nat} (v : Awk) (lines : List Text) (h : 5 ≤ nr) :
    awkLines nr v lines = v := by
  induction lines generalizing nr with
  | nil => rfl
  | cons line rest ih =>
      rw [awkLines_cons v line rest (by omega), if_neg (by omega), if_neg (by omega)]
      exact ih (by omega)

/-- Of an Ethernet device the program takes the first word of the first line
and the last words of the third and the fourth, whatever these lines are. -/
theorem awkLines_ethernet {first : Text} (rest : List Text) (h : HasEthernet first) :
    awkLines 1 {} (first :: rest) =
      ⟨(words isBlank first).headD [], lastWord (rest[1]?.getD []), lastWord (rest[2]?.getD [])⟩ := by
  have hFirst : awkLines 1 {} (first :: rest) =
      awkLines 2 { pci := (words isBlank first).headD [] } rest := by
    conv_lhs => unfold awkLines
    exact if_neg fun hOther => hOther.2 h
  rw [hFirst]
  match rest with
  | [] => rfl
  | [second] => rfl
  | [second, third] => rfl
  | second :: third :: fourth :: more =>
      rw [awkLines_cons _ second _ (by decide), awkLines_cons _ third _ (by decide),
        awkLines_cons _ fourth _ (by decide), awkLines_tail _ more (by decide)]
      rfl

theorem awkLines_other {first : Text} (rest : List Text) (h : ¬ HasEthernet first) :
    awkLines 1 {} (first :: rest) = {} := by
  unfold awkLines
  exact if_pos ⟨rfl, h⟩

theorem solid_isSpace {text : Text} (h : Solid isBlank text) : Solid isSpace text := by
  intro c hMem
  have hBlank := h c hMem
  simp only [isBlank, Bool.or_eq_false_iff] at hBlank
  exact hBlank.1.1

/-- An empty field makes `read` put the next one in its place. -/
theorem readThree_print {v : Awk} (hPci : v.pci ≠ []) (hPciSolid : Solid isSpace v.pci)
    (hDri : Solid isSpace v.dri) (hMod : Solid isSpace v.mod) :
    readThree v.print = (v.pci, if v.dri = [] then (v.mod, []) else (v.dri, v.mod)) := by
  have hFirst : readWord isSpace v.print = (v.pci, ' ' :: (v.dri ++ ' ' :: v.mod)) := by
    unfold Awk.print
    rw [if_neg hPci]
    exact readWord_solid hPciSolid hPci rfl
  unfold readThree
  rw [hFirst]
  dsimp only
  rw [readWord_cons _ rfl]
  by_cases hEmpty : v.dri = []
  · rw [if_pos hEmpty, hEmpty, List.nil_append, readWord_cons _ rfl, readWord_last hMod]
    rfl
  · rw [if_neg hEmpty, readWord_solid hDri hEmpty rfl]
    dsimp only
    rw [strip_cons _ rfl, strip_solid hMod]

namespace Record

theorem words_firstLine (r : Record) : (words isBlank r.firstLine).headD [] = r.pci.text := by
  unfold firstLine
  rw [words_append_cons _ _ (by decide), words_of_solid r.pci.solid r.pci.ne_nil]
  rfl

/-- `$NF` is the word at the end. -/
theorem lastWord_append_word (before : Text) (word : Word) :
    lastWord (before ++ ' ' :: word.text) = word.text := by
  unfold lastWord
  rw [words_append_cons _ _ (by decide), words_of_solid word.solid word.ne_nil]
  simp

/-- A line that ends with the modules ends with the last of them. -/
theorem exists_append_modules (modules : List Word) (h : modules ≠ []) (before : Text) :
    ∃ before', before ++ ' ' :: [',', ' '].intercalate (modules.map Word.text) =
      before' ++ ' ' :: (modules.getLast h).text := by
  induction modules generalizing before with
  | nil => exact absurd rfl h
  | cons first rest ih =>
      cases rest with
      | nil => exact ⟨before, by simp⟩
      | cons second rest =>
          obtain ⟨before', hLine⟩ := ih (List.cons_ne_nil second rest)
            (before ++ ' ' :: (first.text ++ [',']))
          refine ⟨before', ?_⟩
          rw [List.getLast_cons (List.cons_ne_nil second rest), ← hLine]
          simp [List.intercalate_cons_cons]

/-- Of several modules the last is taken. -/
theorem lastWord_modulesLine {modules : List Word} (h : modules ≠ []) :
    lastWord (modulesLine modules) = (modules.getLast h).text := by
  obtain ⟨before, hLine⟩ := exists_append_modules modules h "\tKernel modules:".toList
  unfold modulesLine
  rw [show ", ".toList = [',', ' '] from rfl, hLine]
  exact lastWord_append_word before _

variable {mac : Text → Text × Text × Text} {nics : List Text} {r : Record} {d m : Text}

/-- A record names its last module. -/
theorem moduleName_of_ne_nil {r : Record} (h : r.modules ≠ []) :
    r.moduleName = (r.modules.getLast h).text := by
  unfold moduleName
  rw [List.getLast?_eq_some_getLast h]
  rfl

theorem moduleName_eq_nil_iff {r : Record} : r.moduleName = [] ↔ r.modules = [] := by
  by_cases h : r.modules = []
  · unfold moduleName
    rw [h]
    exact iff_of_true rfl rfl
  · rw [moduleName_of_ne_nil h]
    exact iff_of_false (Word.ne_nil _) h

/-- The line of the modules, if there is one, ends with the name. -/
theorem lastWord_modulesLines (r : Record) : lastWord (r.modulesLines[0]?.getD []) = r.moduleName := by
  unfold modulesLines
  by_cases h : r.modules = []
  · rw [if_pos h, moduleName_eq_nil_iff.mpr h]
    rfl
  · rw [if_neg h, moduleName_of_ne_nil h]
    exact lastWord_modulesLine h

theorem modulesLines_succ (r : Record) (n : Nat) : r.modulesLines[n + 1]? = none := by
  unfold modulesLines
  split <;> rfl

theorem solid_nil : Solid isBlank ([] : Text) := fun _ hMem => absurd hMem List.not_mem_nil

/-- A module's name has no blanks. -/
theorem solid_moduleName (r : Record) : Solid isBlank r.moduleName := by
  by_cases h : r.modules = []
  · rw [moduleName_eq_nil_iff.mpr h]
    exact solid_nil
  · rw [moduleName_of_ne_nil h]
    exact Word.solid _

variable {mac : Text → Text × Text × Text} {nics : List Text} {r : Record}

theorem aligned_iff : r.Aligned ↔
    (r.driver ≠ none ∨ r.modules ≠ [] → r.subsystem ≠ none) ∧
      (r.modules ≠ [] → r.driver ≠ none) :=
  ⟨fun h => ⟨h.subsystem, h.driver⟩, fun h => ⟨h.1, h.2⟩⟩

/-- The driver and the module that are stored for an Ethernet device, with
`d` the last word of its third line and `m` that of its fourth. -/
theorem nicsInfo_ethernet (mac : Text → Text × Text × Text) (nics : List Text) {d m : Text}
    (hEthernet : HasEthernet r.firstLine)
    (hDri : lastWord (r.optionalLines[1]?.getD []) = d)
    (hMod : lastWord (r.optionalLines[2]?.getD []) = m)
    (hDriSolid : Solid isBlank d) (hModSolid : Solid isBlank m) :
    nicsInfo mac nics r.lines =
      nics ++ nicFields mac r.pci.text (if d = [] then [] else m) (if d = [] then m else d) := by
  have hAwk : awkLines 1 {} r.lines = ⟨r.pci.text, d, m⟩ := by
    unfold lines
    rw [awkLines_ethernet _ hEthernet, words_firstLine, hDri, hMod]
  have hRead := readThree_print (v := ⟨r.pci.text, d, m⟩) r.pci.ne_nil
    (solid_isSpace r.pci.solid) (solid_isSpace hDriSolid) (solid_isSpace hModSolid)
  unfold nicsInfo
  rw [hAwk, hRead]
  dsimp only
  by_cases hEmpty : d = []
  · rw [if_pos hEmpty, if_pos hEmpty, if_pos hEmpty]
    exact if_neg r.pci.ne_nil
  · rw [if_neg hEmpty, if_neg hEmpty, if_neg hEmpty]
    exact if_neg r.pci.ne_nil

/-- A record whose first line is not that of an Ethernet device adds nothing. -/
theorem nicsInfo_other (h : ¬ HasEthernet r.firstLine) : nicsInfo mac nics r.lines = nics := by
  unfold nicsInfo lines
  rw [awkLines_other _ h]
  rfl

/-- The elements of a device tell its module and driver. -/
theorem append_nicFields_inj {pci mod dri mod' dri' : Text} :
    nics ++ nicFields mac pci mod dri = nics ++ nicFields mac pci mod' dri' ↔
      mod = mod' ∧ dri = dri' := by
  unfold nicFields
  simp only [List.append_cancel_left_eq, List.cons.injEq, true_and, and_true]

/-- The lines that are there, in order. -/
theorem optionalLines_eq {subsystem : Option Text} {driver : Option Word}
    (hSubsystem : r.subsystem = subsystem) (hDriver : r.driver = driver) :
    r.optionalLines =
      subsystem.toList.map subsystemLine ++ driver.toList.map driverLine ++ r.modulesLines := by
  rw [← hSubsystem, ← hDriver]
  rfl

theorem driverName_eq {driver : Option Word} (hDriver : r.driver = driver) :
    r.driverName = (driver.map Word.text).getD [] := by
  rw [← hDriver]
  rfl

/-- With the lines "Subsystem" and "Kernel driver in use" the others stand
where they are expected. -/
theorem stored_both {text : Text} {driver : Word} (hEthernet : HasEthernet r.firstLine)
    (hSubsystem : r.subsystem = some text) (hDriver : r.driver = some driver) :
    nicsInfo mac nics r.lines = nics ++ nicFields mac r.pci.text r.moduleName driver.text := by
  have hLines : r.optionalLines = subsystemLine text :: driverLine driver :: r.modulesLines :=
    optionalLines_eq hSubsystem hDriver
  have hStored := nicsInfo_ethernet mac nics hEthernet
    (hLines ▸ lastWord_append_word _ driver) (hLines ▸ r.lastWord_modulesLines) driver.solid
    r.solid_moduleName
  rwa [if_neg driver.ne_nil, if_neg driver.ne_nil] at hStored

/-- With only one of the two, the module is taken for the driver. -/
theorem stored_one {line : Text} (hEthernet : HasEthernet r.firstLine)
    (hLines : r.optionalLines = line :: r.modulesLines) :
    nicsInfo mac nics r.lines = nics ++ nicFields mac r.pci.text [] r.moduleName := by
  have hFourth : lastWord (r.optionalLines[2]?.getD []) = [] := by
    rw [hLines, List.getElem?_cons_succ, modulesLines_succ]
    rfl
  have hStored := nicsInfo_ethernet mac nics hEthernet (hLines ▸ r.lastWord_modulesLines) hFourth
    r.solid_moduleName solid_nil
  rw [ite_self] at hStored
  by_cases hEmpty : r.moduleName = []
  · rw [if_pos hEmpty] at hStored
    rw [hStored, hEmpty]
  · rwa [if_neg hEmpty] at hStored

/-- With neither of them nothing is found. -/
theorem stored_neither (hEthernet : HasEthernet r.firstLine)
    (hLines : r.optionalLines = r.modulesLines) :
    nicsInfo mac nics r.lines = nics ++ nicFields mac r.pci.text [] [] := by
  have hThird : lastWord (r.optionalLines[1]?.getD []) = [] := by
    rw [hLines, modulesLines_succ]
    rfl
  have hFourth : lastWord (r.optionalLines[2]?.getD []) = [] := by
    rw [hLines, modulesLines_succ]
    rfl
  exact nicsInfo_ethernet mac nics hEthernet hThird hFourth solid_nil solid_nil

/-- `nics_info` stores the driver and the module of a device exactly if no
line of its record is missing before another. -/
theorem nicsInfo_eq_iff (mac : Text → Text × Text × Text) (nics : List Text) (r : Record) :
    nicsInfo mac nics r.lines = nics ++ r.nic mac ↔ (HasEthernet r.firstLine → r.Aligned) := by
  by_cases hEthernet : HasEthernet r.firstLine
  · rw [nic, if_pos hEthernet, aligned_iff, imp_iff_right hEthernet]
    cases hDriver : r.driver with
    | none =>
        have hName : r.driverName = [] := driverName_eq hDriver
        have hAligned : ((none : Option Word) ≠ none ∨ r.modules ≠ [] → r.subsystem ≠ none) ∧
            (r.modules ≠ [] → (none : Option Word) ≠ none) ↔ r.modules = [] := by
          constructor
          · exact fun h => not_not.mp fun hModules => h.2 hModules rfl
          · exact fun h => ⟨fun hSome => absurd rfl (hSome.resolve_right (not_not.mpr h)),
              fun hModules => absurd h hModules⟩
        rw [hName, hAligned]
        cases hSubsystem : r.subsystem with
        | none =>
            have hLines : r.optionalLines = r.modulesLines :=
              optionalLines_eq hSubsystem hDriver
            rw [stored_neither hEthernet hLines, append_nicFields_inj, eq_comm,
              moduleName_eq_nil_iff]
            exact and_iff_left rfl
        | some text =>
            have hLines : r.optionalLines = subsystemLine text :: r.modulesLines :=
              optionalLines_eq hSubsystem hDriver
            rw [stored_one hEthernet hLines, append_nicFields_inj, eq_comm, and_self,
              moduleName_eq_nil_iff]
    | some driver =>
        have hName : r.driverName = driver.text := driverName_eq hDriver
        rw [hName]
        cases hSubsystem : r.subsystem with
        | none =>
            have hLines : r.optionalLines = driverLine driver :: r.modulesLines :=
              optionalLines_eq hSubsystem hDriver
            rw [stored_one hEthernet hLines, append_nicFields_inj]
            refine iff_of_false (fun h => ?_) fun h => h.1 (Or.inl nofun) rfl
            rw [← h.1] at h
            exact driver.ne_nil h.2.symm
        | some text =>
            rw [stored_both hEthernet hSubsystem hDriver]
            exact iff_of_true rfl ⟨fun _ => nofun, fun _ => nofun⟩
  · rw [nicsInfo_other hEthernet, nic, if_neg hEthernet, List.append_nil]
    exact iff_of_true rfl fun h => absurd h hEthernet

end Record

/-- A device without a driver is stored with its module for one. -/
theorem not_nicsInfo_eq :
    ¬ ∀ (mac : Text → Text × Text × Text) (r : Record),
      nicsInfo mac [] r.lines = r.nic mac := by
  intro hAll
  let device : Word := ⟨"0000:01:00.0".toList, by decide, by decide, by decide⟩
  let module : Word := ⟨"ixgbe".toList, by decide, by decide, by decide⟩
  let r : Record := ⟨device, "Ethernet controller: Intel".toList, some "Intel".toList, none, [module]⟩
  have hEthernet : HasEthernet r.firstLine := by decide +kernel
  have hStored := hAll (fun _ => ([], [], [])) r
  rw [Record.stored_one hEthernet rfl, Record.nic, if_pos hEthernet] at hStored
  have hModule := (Record.append_nicFields_inj.mp hStored).1
  exact absurd hModule.symm module.ne_nil

end DpdkPerf.DpdkBind
