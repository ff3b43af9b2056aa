import Mathlib.Data.List.Basic

/-! Rows of text in columns of at least a given width, each column with its own
separator behind it. The columns can be read back from the row if neither the
separators nor the space they are filled with occur in them. -/
namespace DpdkPerf

variable {α : Type*} {space sep : α} {first first' rest rest' : List α}

/-- One pass over a format. A column without a text is empty. -/
def printRow (space : α) : List (Nat × α) → List (List α) → List α
  | [], _ => []
  | (width, sep) :: format, texts =>
      (texts.headD []).rightpad width space ++ sep :: printRow space format texts.tail

/-- The first separator splits a text in one way only. -/
theorem append_cons_inj (h : sep ∉ first) (h' : sep ∉ first') :
    first ++ sep :: rest = first' ++ sep :: rest' ↔ first = first' ∧ rest = rest' := by
  induction first generalizing first' with
  | nil =>
      cases first' with
      | nil => simp
      | cons c more =>
          have hHead : sep ≠ c := fun hSame => h' (hSame ▸ List.mem_cons_self)
          simp [hHead]
  | cons c more ih =>
      cases first' with
      | nil =>
          have hHead : c ≠ sep := fun hSame => h (hSame ▸ List.mem_cons_self)
          simp [hHead]
      | cons c' more' =>
          rw [List.mem_cons, not_or] at h h'
          rw [List.cons_append, List.cons_append, List.cons.injEq, List.cons.injEq, ih h.2 h'.2,
            and_assoc]

/-- What a text is filled up with can be told from the text. -/
theorem rightpad_inj (width : Nat) (h : space ∉ first) (h' : space ∉ first') :
    first.rightpad width space = first'.rightpad width space ↔ first = first' := by
  refine ⟨fun hEq => ?_, fun hEq => hEq ▸ rfl⟩
  have hFilled : ∀ text : List α, text.rightpad width space ++ [space] =
      text ++ space :: List.replicate (width - text.length) space := by
    intro text
    rw [List.rightpad, List.append_assoc, ← List.replicate_succ', List.replicate_succ]
  have hBoth := congrArg (· ++ [space]) hEq
  simp only [hFilled] at hBoth
  exact ((append_cons_inj h h').mp hBoth).1

theorem notMem_rightpad (width : Nat) (h : sep ∉ first) (hSep : sep ≠ space) :
    sep ∉ first.rightpad width space := by
  rw [List.rightpad, List.mem_append, not_or]
  exact ⟨h, fun hMem => hSep (List.eq_of_mem_replicate hMem)⟩

/-- A text that can stand in the columns of a format. -/
def Fits (space : α) (format : List (Nat × α)) (text : List α) : Prop :=
  space ∉ text ∧ ∀ column ∈ format, column.2 ∉ text

theorem fits_headD {format : List (Nat × α)} {texts : List (List α)}
    (h : ∀ text ∈ texts, Fits space format text) : Fits space format (texts.headD []) := by
  cases texts with
  | nil => exact ⟨List.not_mem_nil, fun _ _ => List.not_mem_nil⟩
  | cons text more => exact h text List.mem_cons_self

/-- Two rows are the same, whatever follows them, if they have the same texts
in their columns. -/
theorem printRow_append_inj {format : List (Nat × α)} {texts texts' : List (List α)}
    (hSep : ∀ column ∈ format, column.2 ≠ space) (h : ∀ text ∈ texts, Fits space format text)
    (h' : ∀ text ∈ texts', Fits space format text) :
    printRow space format texts ++ rest = printRow space format texts' ++ rest' ↔
      (∀ k < format.length, texts[k]?.getD [] = texts'[k]?.getD []) ∧ rest = rest' := by
  induction format generalizing texts texts' with
  | nil => simp [printRow]
  | cons column format ih =>
      obtain ⟨width, sep⟩ := column
      have hHead := fits_headD h
      have hHead' := fits_headD h'
      have hMore : ∀ texts : List (List α),
          (∀ text ∈ texts, Fits space ((width, sep) :: format) text) →
            ∀ text ∈ texts.tail, Fits space format text := fun texts hAll text hMem =>
        ⟨(hAll text (List.mem_of_mem_tail hMem)).1, fun column hColumn =>
          (hAll text (List.mem_of_mem_tail hMem)).2 column (List.mem_cons_of_mem _ hColumn)⟩
      have hHere : sep ≠ space := hSep (width, sep) List.mem_cons_self
      rw [printRow, printRow, List.append_assoc, List.append_assoc, List.cons_append,
        List.cons_append,
        append_cons_inj (notMem_rightpad width (hHead.2 _ List.mem_cons_self) hHere)
          (notMem_rightpad width (hHead'.2 _ List.mem_cons_self) hHere),
        rightpad_inj width hHead.1 hHead'.1,
        ih (fun column hColumn => hSep column (List.mem_cons_of_mem _ hColumn)) (hMore texts h)
          (hMore texts' h'), ← and_assoc]
      refine and_congr_left fun _ => ?_
      constructor
      · rintro ⟨hFirst, hRest⟩ k hk
        cases k with
        | zero => simpa [List.headD_eq_head?_getD, List.head?_eq_getElem?] using hFirst
        | succ k => simpa using hRest k (Nat.lt_of_succ_lt_succ hk)
      · intro hAll
        constructor
        · simpa [List.headD_eq_head?_getD, List.head?_eq_getElem?] using hAll 0 (Nat.succ_pos _)
        · intro k hk
          simpa using hAll (k + 1) (Nat.succ_lt_succ hk)

end DpdkPerf
