import DpdkPerf.DpdkBind.Table

/-! The ports that dpdk drives: portid prints a line for each of them, the
script reads the lines back into an array of three elements a port, and `mac`
looks a device up in sysfs and then in that array. The words of the script
without quotes are patterns for the files of the working directory, the sets
of `tr [A-Z] [a-z]` too. -/
namespace DpdkPerf.DpdkBind

/-- A port as the EAL tells of it. The device name is the PCI address. -/
structure Port where
  device : Word
  macAddr : Fin 6 → UInt8
  driver : Word

/-- The format of a MAC address: each byte in two digits, with colons. -/
def formatAddr (digit : Nat → Char) (macAddr : Fin 6 → UInt8) : Text :=
  [':'].intercalate ((List.ofFn macAddr).map fun b => [digit (b.toNat / 16), digit (b.toNat % 16)])

/-- `ether_format_addr`, which is for "%02X". -/
def etherFormatAddr (macAddr : Fin 6 → UInt8) : Text :=
  formatAddr (fun n => (Nat.digitChar n).toUpper) macAddr

/-- The format of the kernel's address files, which is for "%02x". -/
def sysfsFormatAddr (macAddr : Fin 6 → UInt8) : Text := formatAddr Nat.digitChar macAddr

def Port.line (port : Port) : Text :=
  port.device.text ++ ' ' :: (etherFormatAddr port.macAddr ++ ' ' :: port.driver.text)

/-- What `main` of portid prints. -/
def portid (ports : List Port) : Text := ports.flatMap fun port => port.line ++ ['\n']

def isNewline (c : Char) : Bool := c == '\n'

/-- The characters of a set of `tr`, in which a dash makes a range. -/
def trSet : Text → Text
  | first :: '-' :: last :: rest =>
      (List.range (last.toNat + 1 - first.toNat)).map (fun k => Char.ofNat (first.toNat + k)) ++
        trSet rest
  | c :: rest => c :: trSet rest
  | [] => []

/-- `tr` with these operands, of which it takes two. The last character of the
second set stands for those that it is short of. -/
def tr (operands : List Text) (text : Text) : Option Text :=
  match operands with
  | [set1, set2] =>
      some (text.map fun c =>
        match (trSet set1).idxOf? c with
        | some k => (trSet set2).getD k ((trSet set2).getLastD c)
        | none => c)
  | _ => none

def upperSet : Text := "[A-Z]".toList

def lowerSet : Text := "[a-z]".toList

/-- One round of `parse_dpdk_nics`. The script ends where `tr` fails. -/
def storePort (files : Text → List Text) (dpdkNics : SparseArray Text) (line : Text) :
    Option (SparseArray Text) := do
  let (pci, mac, dri) := readThree line
  let lower ← tr (unquoted files upperSet ++ unquoted files lowerSet) mac
  let len := dpdkNics.count
  let dpdkNics := dpdkNics.insert (len + 1) pci
  let dpdkNics := dpdkNics.insert (len + 2) lower
  return dpdkNics.insert (len + 3) dri

/-- The lines are split at the newlines, and one with a pattern is replaced
with the names of files. -/
def parseDpdkNics (files : Text → List Text) (output : Text) : Option (SparseArray Text) :=
  ((words isNewline output).flatMap fun line =>
    if line.any isGlob then files line else [line]).foldlM (storePort files) ∅

/-- `[ $left == $right ]`. With one word on each side it compares them, with
none on both it has the one argument `==`, and any other number of words is
taken for an error, which is false to an `if`. -/
def testEq (files : Text → List Text) (left right : Text) : Bool :=
  match unquoted files left, unquoted files right with
  | [l], [r] => l = r
  | [], [] => true
  | _, _ => false

/-- A directory of `/sys/bus/pci/devices/$1/net`, and what is in its file
"address". -/
structure NetDir where
  name : Word
  address : Word

/-- The loop of `mac` over the array, from `i` on. -/
def searchPorts (files : Text → List Text) (dpdkNics : SparseArray Text) (pci : Text) (i : Nat)
    (found : Text × Text × Text) : Text × Text × Text :=
  if i ≤ dpdkNics.count then
    searchPorts files dpdkNics pci (i + 3)
      (if testEq files (element dpdkNics i) pci then
        (element dpdkNics (i + 1), element dpdkNics (i + 2), "true".toList)
      else found)
  else found
termination_by dpdkNics.count + 1 - i

/-- `mac`, up to its `echo`. `net` are the directories of a device in the
order of their names. -/
def findMac (files : Text → List Text) (net : Text → List NetDir) (dpdkNics : SparseArray Text)
    (pci : Text) : Text × Text × Text :=
  let (mac, ifs) := (net pci).foldl (fun _ d => (d.address.text, d.name.text)) (['-'], ['-'])
  if testEq files mac ['-'] then searchPorts files dpdkNics pci 1 (mac, ifs, "false".toList)
  else (mac, ifs, "false".toList)

/-- `read mac ifs dpdk` of what `mac` prints. -/
def mac (files : Text → List Text) (net : Text → List NetDir) (dpdkNics : SparseArray Text)
    (pci : Text) : Text × Text × Text :=
  let (mac, ifs, dpdk) := findMac files net dpdkNics pci
  readThree ([' '].intercalate ([mac, ifs, dpdk].flatMap (unquoted files)))

/-- No pattern for file names. -/
def Word.Literal (word : Word) : Prop := word.text.any isGlob = false

/-- A text that stays one word when it is expanded without quotes. -/
structure Whole (text : Text) : Prop where
  ne_nil : text ≠ []
  solid : Solid isBlank text
  literal : text.any isGlob = false

theorem Word.Literal.whole {word : Word} (h : word.Literal) : Whole word.text :=
  ⟨word.ne_nil, word.solid, h⟩

/-- A whole word is one argument, whatever files there are. -/
theorem Whole.unquoted_eq {files : Text → List Text} {text : Text} (h : Whole text) :
    unquoted files text = [text] := by
  rw [DpdkBind.unquoted_eq h.solid h.literal]
  exact List.filter_eq_self.mpr fun a hMem => by
    rw [List.mem_singleton.mp hMem]
    exact decide_eq_true h.ne_nil

/-- Whole words are compared as they are. -/
theorem Whole.testEq_iff {files : Text → List Text} {left right : Text} (hLeft : Whole left)
    (hRight : Whole right) : testEq files left right = true ↔ left = right := by
  unfold testEq
  rw [hLeft.unquoted_eq, hRight.unquoted_eq]
  exact decide_eq_true_iff

/-- No file of the working directory has a name of one letter, so the sets of
`tr` stay as they are written. -/
structure NoLetterFiles (files : Text → List Text) : Prop where
  upper : files upperSet = [upperSet]
  lower : files lowerSet = [lowerSet]

structure Port.Literal (port : Port) : Prop where
  device : port.device.Literal
  driver : port.driver.Literal

def Port.fields (port : Port) : List Text :=
  [port.device.text, sysfsFormatAddr port.macAddr, port.driver.text]

theorem Port.length_fields (port : Port) : port.fields.length = 3 := rfl

section Format

/-- What holds of the colon and of every digit holds of the address. -/
theorem forall_formatAddr {P : Char → Prop} {digit : Nat → Char} (macAddr : Fin 6 → UInt8)
    (hColon : P ':') (hDigit : ∀ n < 16, P (digit n)) : ∀ c ∈ formatAddr digit macAddr, P c := by
  intro c hMem
  obtain hSep | ⟨text, hText, hChar⟩ := mem_of_mem_intercalate hMem
  · rw [List.mem_singleton.mp hSep]
    exact hColon
  · obtain ⟨b, -, rfl⟩ := List.mem_map.mp hText
    have hByte := b.toNat_lt
    simp only [List.mem_cons, List.not_mem_nil, or_false] at hChar
    obtain rfl | rfl := hChar
    · exact hDigit _ (by omega)
    · exact hDigit _ (by omega)

/-- A MAC address is not an empty text. -/
theorem formatAddr_ne_nil (digit : Nat → Char) (macAddr : Fin 6 → UInt8) :
    formatAddr digit macAddr ≠ [] := by
  unfold formatAddr
  rw [List.ofFn_succ, List.ofFn_succ, List.map_cons, List.map_cons, List.intercalate_cons_cons]
  simp

/-- The operands of `tr` where no file has a name of one letter. -/
theorem NoLetterFiles.operands {files : Text → List Text} (h : NoLetterFiles files) :
    unquoted files upperSet ++ unquoted files lowerSet = [upperSet, lowerSet] := by
  have hUpper : unquoted files upperSet = files upperSet := List.append_nil _
  have hLower : unquoted files lowerSet = files lowerSet := List.append_nil _
  rw [hUpper, hLower, h.upper, h.lower]
  rfl

/-- The script turns the format of the EAL into that of the kernel. -/
theorem tr_etherFormatAddr (macAddr : Fin 6 → UInt8) :
    tr [upperSet, lowerSet] (etherFormatAddr macAddr) = some (sysfsFormatAddr macAddr) := by
  let lower : Char → Char := fun c =>
    match (trSet upperSet).idxOf? c with
    | some k => (trSet lowerSet).getD k ((trSet lowerSet).getLastD c)
    | none => c
  have hColon : lower ':' = ':' := by decide
  have hDigit : ∀ n < 16, lower (Nat.digitChar n).toUpper = Nat.digitChar n := by decide
  have hByte : ∀ b : UInt8,
      List.map lower [(Nat.digitChar (b.toNat / 16)).toUpper,
        (Nat.digitChar (b.toNat % 16)).toUpper] =
      [Nat.digitChar (b.toNat / 16), Nat.digitChar (b.toNat % 16)] := by
    intro b
    have hLt := b.toNat_lt
    rw [List.map_cons, List.map_cons, List.map_nil, hDigit _ (by omega), hDigit _ (by omega)]
  show some ((etherFormatAddr macAddr).map lower) = _
  unfold etherFormatAddr sysfsFormatAddr formatAddr
  rw [map_intercalate, List.map_map, List.map_singleton, hColon]
  exact congrArg some (congrArg _ (List.map_congr_left fun b _ => hByte b))

/-- With a file `A` in the working directory the first set is that letter. -/
example : tr ["A".toList, lowerSet] "AB:0C".toList = some "[B:0C".toList := by decide

theorem solid_etherFormatAddr (macAddr : Fin 6 → UInt8) :
    Solid isBlank (etherFormatAddr macAddr) :=
  forall_formatAddr macAddr (by decide) (by decide)

theorem solid_sysfsFormatAddr (macAddr : Fin 6 → UInt8) :
    Solid isBlank (sysfsFormatAddr macAddr) :=
  forall_formatAddr macAddr (by decide) (by decide)

theorem literal_etherFormatAddr (macAddr : Fin 6 → UInt8) :
    (etherFormatAddr macAddr).any isGlob = false :=
  List.any_eq_false.mpr (forall_formatAddr macAddr (by decide) (by decide))

theorem literal_sysfsFormatAddr (macAddr : Fin 6 → UInt8) :
    (sysfsFormatAddr macAddr).any isGlob = false :=
  List.any_eq_false.mpr (forall_formatAddr macAddr (by decide) (by decide))

end Format

section Parse

variable {files : Text → List Text} {ports : List Port} {port : Port} {a : SparseArray Text}
  {values : List Text}

/-- The script reads the three words of a line back. -/
theorem readThree_line (port : Port) :
    readThree port.line = (port.device.text, etherFormatAddr port.macAddr, port.driver.text) := by
  have hLine : port.line =
      (⟨port.device.text, etherFormatAddr port.macAddr, port.driver.text⟩ : Awk).print :=
    (if_neg port.device.ne_nil).symm
  have hMac : etherFormatAddr port.macAddr ≠ [] := formatAddr_ne_nil _ _
  rw [hLine, readThree_print port.device.ne_nil (solid_isSpace port.device.solid)
    (solid_isSpace (solid_etherFormatAddr _)) (solid_isSpace port.driver.solid),
    if_neg hMac]

/-- A line has no newline in it. -/
theorem solid_line (port : Port) : Solid isNewline port.line := by
  have hWord : ∀ text : Text, Solid isBlank text → ∀ c ∈ text, isNewline c = false := by
    intro text hSolid c hMem
    have hBlank := hSolid c hMem
    simp only [isBlank, Bool.or_eq_false_iff] at hBlank
    exact hBlank.2
  intro c hMem
  simp only [Port.line, List.mem_append, List.mem_cons] at hMem
  obtain hDevice | rfl | hMac | rfl | hDriver := hMem
  · exact hWord _ port.device.solid c hDevice
  · rfl
  · exact hWord _ (solid_etherFormatAddr _) c hMac
  · rfl
  · exact hWord _ port.driver.solid c hDriver

theorem line_ne_nil (port : Port) : port.line ≠ [] :=
  List.append_ne_nil_of_left_ne_nil port.device.ne_nil _

/-- A line is no pattern if its names are none. -/
theorem Port.Literal.line (h : port.Literal) : port.line.any isGlob = false := by
  have hSpace : isGlob ' ' = false := rfl
  unfold Port.line
  rw [List.any_append, List.any_cons, List.any_append, List.any_cons, h.device, h.driver,
    literal_etherFormatAddr, hSpace]
  rfl

/-- A line of portid adds the three elements of its port. -/
theorem storePort_holds (hFiles : NoLetterFiles files) (h : a.Holds values) (port : Port) :
    ∃ after, storePort files a port.line = some after ∧ after.Holds (values ++ port.fields) := by
  have hPci := h.push (congrArg (· + 1) h.count) port.device.text
  have hMac := hPci.push (k := a.count + 2) (by simp [h.count]) (sysfsFormatAddr port.macAddr)
  have hDri := hMac.push (k := a.count + 3) (by simp [h.count]) port.driver.text
  have hFields : values ++ [port.device.text] ++ [sysfsFormatAddr port.macAddr] ++
      [port.driver.text] = values ++ port.fields := by
    simp [Port.fields]
  refine ⟨_, ?_, hFields ▸ hDri⟩
  unfold storePort
  rw [readThree_line, hFiles.operands]
  dsimp only
  rw [tr_etherFormatAddr]
  rfl

/-- Whatever ports there are, the array has three elements for each of them, in
order, with the MAC address in the format of the kernel. -/
theorem parseDpdkNics_holds (hFiles : NoLetterFiles files)
    (hLiteral : ∀ port ∈ ports, port.Literal) :
    ∃ dpdkNics, parseDpdkNics files (portid ports) = some dpdkNics ∧
      dpdkNics.Holds (ports.flatMap Port.fields) := by
  have hPortid : portid ports = (ports.map Port.line).flatMap fun line => line ++ ['\n'] := by
    rw [List.flatMap_map]
    rfl
  have hWords : words isNewline (portid ports) = ports.map Port.line := by
    rw [hPortid]
    refine words_lines rfl (fun line hMem => ?_) fun line hMem => ?_
    · obtain ⟨port, -, rfl⟩ := List.mem_map.mp hMem
      exact solid_line port
    · obtain ⟨port, -, rfl⟩ := List.mem_map.mp hMem
      exact line_ne_nil port
  have hLines : ((ports.map Port.line).flatMap fun line =>
      if line.any isGlob then files line else [line]) = ports.map Port.line := by
    rw [List.flatMap_map, ← List.flatMap_singleton' (ports.map Port.line), List.flatMap_map]
    refine List.flatMap_congr fun port hMem => ?_
    rw [(hLiteral port hMem).line, if_neg Bool.false_ne_true]
  unfold parseDpdkNics
  rw [hWords, hLines]
  clear hPortid hWords hLines hLiteral
  induction ports using List.reverseRecOn with
  | nil => exact ⟨∅, rfl, SparseArray.holds_empty⟩
  | append_singleton before port ih =>
      obtain ⟨dpdkNics, hBefore, hHolds⟩ := ih
      obtain ⟨after, hPort, hAfter⟩ := storePort_holds hFiles hHolds port
      refine ⟨after, ?_, ?_⟩
      · rw [List.map_append, List.foldlM_append, hBefore]
        show (storePort files dpdkNics port.line >>= fun a => pure a) = some after
        rw [hPort]
        rfl
      · rw [List.flatMap_append, List.flatMap_singleton]
        exact hAfter

end Parse

section Search

/-- A loop that keeps what it found last. -/
theorem foldl_last {α β : Type*} (p : α → Prop) [DecidablePred p] (f : α → β) (found : β)
    (items : List α) :
    items.foldl (fun found item => if p item then f item else found) found =
      ((items.filter fun item => p item).getLast?.map f).getD found := by
  induction items using List.reverseRecOn with
  | nil => rfl
  | append_singleton before item ih =>
      rw [List.foldl_append, List.foldl_cons, List.foldl_nil, List.filter_append, ih]
      by_cases hItem : p item
      · simp [hItem]
      · simp [hItem]

variable {files : Text → List Text} {ports : List Port} {a : SparseArray Text} {pci : Text}

/-- What is found for a port of the device. -/
def Port.found (port : Port) : Text × Text × Text :=
  (sysfsFormatAddr port.macAddr, port.driver.text, "true".toList)

/-- The search finds the last port with the address, and leaves what it had if
there is none. -/
theorem searchPorts_eq (hPci : Whole pci) (before rest : List Port) (found : Text × Text × Text)
    (hPorts : ∀ port ∈ rest, port.Literal) (h : a.Holds ((before ++ rest).flatMap Port.fields)) :
    searchPorts files a pci (3 * before.length + 1) found =
      rest.foldl (fun found port => if port.device.text = pci then port.found else found) found := by
  have hCount : a.count = 3 * (before.length + rest.length) := by
    rw [h.count_blocks Port.length_fields, List.length_append]
  induction rest generalizing before found with
  | nil =>
      rw [List.length_nil] at hCount
      rw [searchPorts, if_neg (by omega)]
      rfl
  | cons port rest ih =>
      rw [List.length_cons] at hCount
      rw [List.forall_mem_cons] at hPorts
      have hElement (k : Nat) (hk : k < 3) :
          element a (3 * before.length + 1 + k) = port.fields[k]?.getD [] := by
        rw [element, h.lookup_block Port.length_fields hk]
      have hNext : 3 * before.length + 1 + 3 = 3 * (before ++ [port]).length + 1 := by
        rw [List.length_append, List.length_singleton]
        omega
      have hSplit : before ++ port :: rest = before ++ [port] ++ rest := by simp
      have hDevice : element a (3 * before.length + 1) = port.device.text := hElement 0 (by decide)
      have hMac : element a (3 * before.length + 1 + 1) = sysfsFormatAddr port.macAddr :=
        hElement 1 (by decide)
      have hDriver : element a (3 * before.length + 1 + 2) = port.driver.text :=
        hElement 2 (by decide)
      have hSame : testEq files port.device.text pci = true ↔ port.device.text = pci :=
        hPorts.1.device.whole.testEq_iff hPci
      rw [searchPorts, if_pos (by omega), hDevice, hMac, hDriver, hNext,
        ih (before ++ [port]) _ hPorts.2 (hSplit ▸ h) (by simp; omega), List.foldl_cons]
      simp only [hSame]
      rfl

/-- What there is to find out about a device: the last of its interfaces, or
else the last port of that name. -/
def knownMac (net : Text → List NetDir) (ports : List Port) (pci : Text) : Text × Text × Text :=
  match (net pci).getLast? with
  | some d => (d.address.text, d.name.text, "false".toList)
  | none =>
      ((ports.filter fun port => port.device.text = pci).getLast?.map Port.found).getD
        (['-'], ['-'], "false".toList)

/-- The names and addresses in sysfs. An address is not a dash. -/
structure NetDir.Literal (d : NetDir) : Prop where
  name : d.name.Literal
  address : d.address.Literal
  known : d.address.text ≠ ['-']

variable {net : Text → List NetDir}

theorem whole_dash : Whole ['-'] := ⟨by decide, by decide, by decide⟩

/-- `mac` finds what there is to know about a device. -/
theorem findMac_eq (hPci : Whole pci) (hPorts : ∀ port ∈ ports, port.Literal)
    (hNet : ∀ d ∈ net pci, d.Literal) (h : a.Holds (ports.flatMap Port.fields)) :
    findMac files net a pci = knownMac net ports pci := by
  have hSearch (found : Text × Text × Text) :
      searchPorts files a pci 1 found =
        ((ports.filter fun port => port.device.text = pci).getLast?.map Port.found).getD found := by
    rw [← foldl_last fun port : Port => port.device.text = pci]
    exact searchPorts_eq hPci [] ports found hPorts h
  unfold findMac knownMac
  cases hLast : net pci using List.reverseRecOn with
  | nil =>
      have hUnknown : testEq files ['-'] ['-'] = true := (whole_dash.testEq_iff whole_dash).mpr rfl
      exact (if_pos hUnknown).trans (hSearch _)
  | append_singleton before d =>
      have hDir : d.Literal := hNet d (by simp [hLast])
      have hKnown : ¬ testEq files d.address.text ['-'] = true := fun hTest =>
        hDir.known ((hDir.address.whole.testEq_iff whole_dash).mp hTest)
      rw [List.foldl_append, List.getLast?_concat]
      exact if_neg hKnown

theorem whole_knownMac (hPorts : ∀ port ∈ ports, port.Literal) (hNet : ∀ d ∈ net pci, d.Literal) :
    Whole (knownMac net ports pci).1 ∧ Whole (knownMac net ports pci).2.1 ∧
      Whole (knownMac net ports pci).2.2 := by
  have hFalse : Whole "false".toList := ⟨by decide, by decide, by decide⟩
  have hTrue : Whole "true".toList := ⟨by decide, by decide, by decide⟩
  unfold knownMac
  cases hLast : (net pci).getLast? with
  | some d =>
      have hDir := hNet d (List.mem_of_getLast? hLast)
      exact ⟨hDir.address.whole, hDir.name.whole, hFalse⟩
  | none =>
      cases hPort : (ports.filter fun port => port.device.text = pci).getLast? with
      | none => exact ⟨whole_dash, whole_dash, hFalse⟩
      | some port =>
          have hLiteral := hPorts port (List.mem_of_mem_filter (List.mem_of_getLast? hPort))
          exact ⟨⟨formatAddr_ne_nil _ _, solid_sysfsFormatAddr _, literal_sysfsFormatAddr _⟩,
            hLiteral.driver.whole, hTrue⟩

/-- `read` takes three whole words as `echo` prints them. -/
theorem readThree_echo {first second third : Text} (hFirst : Whole first)
    (hSecond : Whole second) (hThird : Whole third) :
    readThree ([' '].intercalate ([first, second, third].flatMap (unquoted files))) =
      (first, second, third) := by
  have hArgs : [first, second, third].flatMap (unquoted files) = [first, second, third] := by
    rw [List.flatMap_cons, List.flatMap_cons, List.flatMap_singleton, hFirst.unquoted_eq,
      hSecond.unquoted_eq, hThird.unquoted_eq]
    rfl
  have hPrint : [' '].intercalate [first, second, third] = (⟨first, second, third⟩ : Awk).print := by
    unfold Awk.print
    rw [if_neg hFirst.ne_nil]
    simp [List.intercalate_cons_cons]
  rw [hArgs, hPrint, readThree_print hFirst.ne_nil (solid_isSpace hFirst.solid)
    (solid_isSpace hSecond.solid) (solid_isSpace hThird.solid), if_neg hSecond.ne_nil]

/-- From the ports that the EAL has to what `nics_info` reads of a device:
portid prints them, `parse_dpdk_nics` reads them back, `mac` searches them, and
the last interface, or else the last port, of the device is what comes out. -/
theorem mac_eq (files : Text → List Text) (hPci : Whole pci)
    (hPorts : ∀ port ∈ ports, port.Literal) (hNet : ∀ d ∈ net pci, d.Literal)
    (h : a.Holds (ports.flatMap Port.fields)) :
    mac files net a pci = knownMac net ports pci := by
  obtain ⟨hMac, hIfs, hDpdk⟩ := whole_knownMac hPorts hNet
  unfold mac
  rw [findMac_eq hPci hPorts hNet h]
  exact readThree_echo hMac hIfs hDpdk

end Search

end DpdkPerf.DpdkBind
