import Mathlib.Data.List.Basic
import Mathlib.Data.List.Induction
import Mathlib.Order.Bounds.Basic
import Mathlib.Order.MinMax

/-! The latest of a first value and the entries of a list, and what a loop
finds in its place that moves its running value back in every round. A round
without an entry has nothing to compare. -/
namespace DpdkPerf

variable {α : Type*} [LinearOrder α]

/-- The running value after a round, before it is moved. -/
def later (value : α) (entry : Option α) : α := entry.elim value (max value)

def latest (first : α) (entries : List (Option α)) : α := entries.foldl later first

/-- The loop that moves its running value in every round. -/
def latestMoved (move : α → α) (first : α) (entries : List (Option α)) : α :=
  entries.foldl (fun value entry => move (later value entry)) first

variable {move : α → α} {first value bound : α} {entry : Option α} {entries : List (Option α)}

theorem later_le_iff : later value entry ≤ bound ↔ value ≤ bound ∧ ∀ a, entry = some a → a ≤ bound := by
  cases entry with
  | none => simp [later]
  | some other => simp [later]

theorem later_mono {value' : α} (h : value ≤ value') : later value entry ≤ later value' entry := by
  cases entry with
  | none => exact h
  | some other => exact max_le_max h le_rfl

/-- A bound of the result bounds the start and every entry. -/
theorem latest_le_iff :
    latest first entries ≤ bound ↔ first ≤ bound ∧ ∀ a, some a ∈ entries → a ≤ bound := by
  induction entries generalizing first with
  | nil => simp [latest]
  | cons entry rest ih =>
      have hRest : latest first (entry :: rest) = latest (later first entry) rest := rfl
      rw [hRest, ih, later_le_iff]
      constructor
      · rintro ⟨⟨hFirst, hEntry⟩, hAll⟩
        refine ⟨hFirst, fun a hMem => ?_⟩
        rcases List.mem_cons.mp hMem with hSame | hMore
        · exact hEntry a hSame.symm
        · exact hAll a hMore
      · rintro ⟨hFirst, hAll⟩
        exact ⟨⟨hFirst, fun a hSame => hAll a (hSame ▸ List.mem_cons_self)⟩,
          fun a hMem => hAll a (List.mem_cons_of_mem _ hMem)⟩

/-- The result is the start or one of the entries. -/
theorem latest_mem (first : α) (entries : List (Option α)) :
    latest first entries = first ∨ some (latest first entries) ∈ entries := by
  induction entries generalizing first with
  | nil => exact Or.inl rfl
  | cons entry rest ih =>
      have hRest : latest first (entry :: rest) = latest (later first entry) rest := rfl
      rw [hRest]
      rcases ih (later first entry) with hHead | hMem
      · rw [hHead]
        cases entry with
        | none => exact Or.inl rfl
        | some other =>
            rcases max_choice first other with hFirst | hOther
            · exact Or.inl hFirst
            · exact Or.inr (List.mem_cons.mpr (Or.inl (congrArg some hOther)))
      · exact Or.inr (List.mem_cons_of_mem _ hMem)

/-- The loop finds the greatest of the start and the entries. -/
theorem isGreatest_latest (first : α) (entries : List (Option α)) :
    IsGreatest {a | a = first ∨ some a ∈ entries} (latest first entries) := by
  obtain ⟨hFirst, hAll⟩ := latest_le_iff.mp (le_refl (latest first entries))
  refine ⟨latest_mem first entries, ?_⟩
  rintro a (rfl | hMem)
  · exact hFirst
  · exact hAll a hMem

/-- Moving back in each round only makes the result earlier. -/
theorem latestMoved_le (hBack : ∀ a, move a < a) :
    latestMoved move first entries ≤ latest first entries := by
  induction entries using List.reverseRecOn with
  | nil => exact le_rfl
  | append_singleton before entry ih =>
      unfold latestMoved latest
      rw [List.foldl_append, List.foldl_append]
      exact (hBack _).le.trans (later_mono ih)

theorem latestMoved_lt (hBack : ∀ a, move a < a) (hSome : entries ≠ []) :
    latestMoved move first entries < latest first entries := by
  obtain ⟨before, entry, rfl⟩ := (List.eq_nil_or_concat' entries).resolve_left hSome
  unfold latestMoved latest
  rw [List.foldl_append, List.foldl_append]
  exact (hBack _).trans_le (later_mono (latestMoved_le hBack))

/-- The loop finds the latest value, moved back once, exactly if its last
round is the only one, or has the latest value for its entry. -/
theorem latestMoved_eq_iff (hMono : StrictMono move) (hBack : ∀ a, move a < a) :
    latestMoved move first entries = move (latest first entries) ↔
      ∃ before entry, entries = before ++ [entry] ∧
        (before = [] ∨ entry = some (latest first entries)) := by
  rcases List.eq_nil_or_concat' entries with rfl | ⟨before, entry, rfl⟩
  · refine iff_of_false (fun hEq => (hBack first).ne hEq.symm) ?_
    rintro ⟨before, entry, hNil, -⟩
    simp at hNil
  · have hMoved : latestMoved move first (before ++ [entry]) =
        move (later (latestMoved move first before) entry) := by
      unfold latestMoved
      rw [List.foldl_append]
      rfl
    have hLatest : latest first (before ++ [entry]) = later (latest first before) entry := by
      unfold latest
      rw [List.foldl_append]
      rfl
    have hSplit : (∃ before' entry', before ++ [entry] = before' ++ [entry'] ∧
        (before' = [] ∨ entry' = some (latest first (before ++ [entry])))) ↔
          before = [] ∨ entry = some (latest first (before ++ [entry])) := by
      constructor
      · rintro ⟨before', entry', hEq, hLast⟩
        obtain ⟨rfl, hEntry⟩ := List.append_inj' hEq rfl
        obtain rfl := List.cons.inj hEntry |>.1
        exact hLast
      · exact fun hLast => ⟨before, entry, rfl, hLast⟩
    rw [hSplit, hMoved, hMono.injective.eq_iff, hLatest]
    by_cases hNone : before = []
    · subst hNone
      exact iff_of_true rfl (Or.inl rfl)
    · have hLess : latestMoved move first before < latest first before :=
        latestMoved_lt hBack hNone
      simp only [hNone, false_or]
      cases entry with
      | none => exact iff_of_false hLess.ne nofun
      | some other =>
          show max _ other = max _ other ↔ some other = some (max _ other)
          rw [Option.some.injEq, eq_comm (a := other), max_eq_right_iff]
          constructor
          · intro hEq
            by_contra hOther
            rw [max_eq_left (not_le.mp hOther).le] at hEq
            rcases max_choice (latestMoved move first before) other with hMax | hMax
            · exact hLess.ne (hMax.symm.trans hEq)
            · exact hOther (hMax.symm.trans hEq).ge
          · intro hOther
            rw [max_eq_right hOther, max_eq_right (hLess.le.trans hOther)]

end DpdkPerf
