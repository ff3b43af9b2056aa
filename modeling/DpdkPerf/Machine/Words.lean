import Mathlib.Data.List.DropRight

/-! Texts as words between blanks: all of them at once, or one at a time as
the shell's `read` takes them. -/
namespace DpdkPerf

variable {α : Type*} {blank : α → Bool}

def words (blank : α → Bool) (text : List α) : List (List α) :=
  (text.splitOnP blank).filter fun word => !word.isEmpty

/-- The first word of a text, and what follows it. -/
def readWord (blank : α → Bool) (text : List α) : List α × List α :=
  ((text.dropWhile blank).takeWhile fun c => !blank c,
    (text.dropWhile blank).dropWhile fun c => !blank c)

/-- A text without the blanks around it. -/
def strip (blank : α → Bool) (text : List α) : List α := (text.dropWhile blank).rdropWhile blank

/-- No character is blank. -/
def Solid (blank : α → Bool) (text : List α) : Prop := ∀ c ∈ text, blank c = false

instance (text : List α) : Decidable (Solid blank text) :=
  inferInstanceAs (Decidable (∀ c ∈ text, blank c = false))

@[simp] theorem words_nil : words blank [] = [] := rfl

/-- A text without a blank is one word. -/
theorem words_of_solid {word : List α} (h : Solid blank word) (hNonempty : word ≠ []) :
    words blank word = [word] := by
  unfold words
  rw [List.splitOnP_eq_singleton h, List.filter_cons_of_pos, List.filter_nil]
  simpa using hNonempty

theorem words_append_cons (first second : List α) {sep : α} (hSep : blank sep = true) :
    words blank (first ++ sep :: second) = words blank first ++ words blank second := by
  unfold words
  rw [List.splitOnP_append_cons first second hSep, List.filter_append]

/-- Lines, each with its separator behind it. -/
theorem words_lines {sep : α} (hSep : blank sep = true) {lines : List (List α)}
    (hSolid : ∀ line ∈ lines, Solid blank line) (hNonempty : ∀ line ∈ lines, line ≠ []) :
    words blank (lines.flatMap fun line => line ++ [sep]) = lines := by
  induction lines with
  | nil => rfl
  | cons line rest ih =>
      rw [List.forall_mem_cons] at hSolid hNonempty
      rw [List.flatMap_cons, List.append_assoc, List.singleton_append, words_append_cons _ _ hSep,
        words_of_solid hSolid.1 hNonempty.1, ih hSolid.2 hNonempty.2]
      rfl

theorem dropWhile_solid {text : List α} (h : Solid blank text) : text.dropWhile blank = text := by
  cases text with
  | nil => rfl
  | cons c rest => rw [List.dropWhile_cons, h c List.mem_cons_self, if_neg Bool.false_ne_true]

theorem strip_solid {text : List α} (h : Solid blank text) : strip blank text = text := by
  unfold strip List.rdropWhile
  rw [dropWhile_solid h, dropWhile_solid fun c hMem => h c (List.mem_reverse.mp hMem),
    List.reverse_reverse]

theorem strip_cons {sep : α} (text : List α) (hSep : blank sep = true) :
    strip blank (sep :: text) = strip blank text := by
  unfold strip
  rw [List.dropWhile_cons, if_pos hSep]

/-- `read` takes the first word and leaves the blank behind it. -/
theorem readWord_solid {word rest : List α} {sep : α} (h : Solid blank word)
    (hNonempty : word ≠ []) (hSep : blank sep = true) :
    readWord blank (word ++ sep :: rest) = (word, sep :: rest) := by
  have hPlain : ∀ c ∈ word, (!blank c) = true := fun c hMem => by rw [h c hMem]; rfl
  have hStart : (word ++ sep :: rest).dropWhile blank = word ++ sep :: rest := by
    obtain ⟨c, tail, rfl⟩ := List.exists_cons_of_ne_nil hNonempty
    rw [List.cons_append, List.dropWhile_cons, h c List.mem_cons_self, if_neg Bool.false_ne_true]
  unfold readWord
  rw [hStart, List.takeWhile_append_of_pos hPlain, List.dropWhile_append_of_pos hPlain]
  simp [hSep]

/-- Blanks before a word are not looked at. -/
theorem readWord_cons {sep : α} (text : List α) (hSep : blank sep = true) :
    readWord blank (sep :: text) = readWord blank text := by
  unfold readWord
  rw [List.dropWhile_cons, if_pos hSep]

/-- The last word is all that is left. -/
theorem readWord_last {word : List α} (h : Solid blank word) :
    readWord blank word = (word, []) := by
  have hPlain : ∀ c ∈ word, (!blank c) = true := fun c hMem => by rw [h c hMem]; rfl
  unfold readWord
  rw [dropWhile_solid h, List.takeWhile_eq_self_iff.mpr hPlain,
    List.dropWhile_eq_nil_iff.mpr hPlain]

/-- A character of joined texts is of one of them or of the separator. -/
theorem mem_of_mem_intercalate {c : α} {sep : List α} {texts : List (List α)}
    (h : c ∈ sep.intercalate texts) : c ∈ sep ∨ ∃ text ∈ texts, c ∈ text := by
  induction texts with
  | nil => exact absurd h List.not_mem_nil
  | cons first rest ih =>
      cases rest with
      | nil =>
          rw [List.intercalate_singleton] at h
          exact Or.inr ⟨first, List.mem_singleton_self first, h⟩
      | cons second rest =>
          rw [List.intercalate_cons_cons, List.append_assoc, List.mem_append, List.mem_append] at h
          obtain hFirst | hSep | hRest := h
          · exact Or.inr ⟨first, List.mem_cons_self, hFirst⟩
          · exact Or.inl hSep
          · exact (ih hRest).imp_right fun ⟨text, hText, hMem⟩ =>
              ⟨text, List.mem_cons_of_mem _ hText, hMem⟩

/-- Mapping joined texts is joining mapped ones. -/
theorem map_intercalate {β : Type*} (f : α → β) (sep : List α) (texts : List (List α)) :
    (sep.intercalate texts).map f = (sep.map f).intercalate (texts.map (List.map f)) := by
  induction texts with
  | nil => rfl
  | cons first rest ih =>
      cases rest with
      | nil => simp
      | cons second rest =>
          rw [List.intercalate_cons_cons, List.map_append, List.map_append, ih]
          exact List.intercalate_cons_cons.symm

end DpdkPerf
