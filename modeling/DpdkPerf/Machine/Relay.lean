import DpdkPerf.Machine.Run

/-! Relays: stages that hold what went in and let it out in order. Stages in a
row are a relay again, and so is a stage over several steps. -/
namespace DpdkPerf

section Relays

variable {α : Type*}

/-- What a stage held and what went in is what came out and what it holds. -/
def Relays (held fed drained held' : List α) : Prop :=
  held ++ fed = drained ++ held'

variable {held held' held'' fed fed' drained drained' : List α}

namespace Relays

theorem refl (held : List α) : Relays held [] [] held := List.append_nil held

/-- What goes in is held behind the rest. -/
theorem push (held fed : List α) : Relays held fed [] (held ++ fed) := rfl

/-- What comes out is taken from the front. -/
theorem pop (held : List α) (n : Nat) : Relays held [] (held.take n) (held.drop n) :=
  (List.append_nil held).trans (List.take_append_drop n held).symm

/-- One step after another. -/
theorem trans (h : Relays held fed drained held') (h' : Relays held' fed' drained' held'') :
    Relays held (fed ++ fed') (drained ++ drained') held'' := by
  unfold Relays at *
  rw [← List.append_assoc, h, List.append_assoc, h', List.append_assoc]

/-- A stage that feeds another. What is further on stands in front. -/
theorem feed {front front' back back' between : List α} (h : Relays front between drained front')
    (hBack : Relays back fed between back') :
    Relays (front ++ back) fed drained (front' ++ back') := by
  unfold Relays at *
  rw [List.append_assoc, hBack, ← List.append_assoc, h, List.append_assoc]

theorem length_eq (h : Relays held fed drained held') :
    held.length + fed.length = drained.length + held'.length := by
  have hLength := congrArg List.length h
  rwa [List.length_append, List.length_append] at hLength

end Relays

end Relays

namespace Machine

variable {State Input Output : Type*} {M : Machine State Input Output}
  {D : State → Input → Prop} {I G : State → Prop}

end Machine
end DpdkPerf
