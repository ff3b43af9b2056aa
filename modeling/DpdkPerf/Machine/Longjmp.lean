import Mathlib.Logic.Function.Basic

/-! Control on several stacks, as `setjmp` and `longjmp` hand it over. A jump
buffer says where a frame was, and the point to continue at; it does not keep
the frame itself. -/
namespace DpdkPerf

structure JmpBuf (Id Pc : Type*) where
  stack : Id
  depth : Nat
  pc : Pc
  deriving DecidableEq, Repr

/-- The top frame of a stack comes first. -/
structure Stacks (Id Frame : Type*) where
  current : Id
  frames : Id → List Frame

namespace Stacks

variable {Id Pc Frame : Type*} [DecidableEq Id]

/-- The stack that control is on. -/
def top (s : Stacks Id Frame) : List Frame := s.frames s.current

def withTop (s : Stacks Id Frame) (frames : List Frame) : Stacks Id Frame :=
  { s with frames := Function.update s.frames s.current frames }

def setjmp (s : Stacks Id Frame) (pc : Pc) : JmpBuf Id Pc := ⟨s.current, s.top.length, pc⟩

/-- Control goes to the frame at the buffer's depth, and the frames above it
are given up. `land` is what the frame becomes; it fails when the frame is
not one that can continue at the buffer's point. -/
def longjmp (land : Pc → Frame → Option Frame) (s : Stacks Id Frame) (buf : JmpBuf Id Pc) :
    Option (Stacks Id Frame) :=
  let frames := s.frames buf.stack
  if frames.length < buf.depth then none
  else
    match frames.drop (frames.length - buf.depth) with
    | [] => none
    | frame :: below =>
        (land buf.pc frame).map fun frame' =>
          ⟨buf.stack, Function.update s.frames buf.stack (frame' :: below)⟩

/-- Control goes to another stack, which has this one frame. -/
def calljmp (s : Stacks Id Frame) (id : Id) (frame : Frame) : Stacks Id Frame :=
  ⟨id, Function.update s.frames id [frame]⟩

variable {s : Stacks Id Frame} {land : Pc → Frame → Option Frame} {buf : JmpBuf Id Pc}
  {above below : List Frame} {frame frame' : Frame}

@[simp] theorem withTop_current (frames : List Frame) : (s.withTop frames).current = s.current :=
  rfl

@[simp] theorem withTop_top (frames : List Frame) : (s.withTop frames).top = frames :=
  Function.update_self ..

/-- A jump to a frame that is still on its stack, whatever is above it. -/
theorem longjmp_of_frames (hFrames : s.frames buf.stack = above ++ frame :: below)
    (hDepth : buf.depth = below.length + 1) (hLand : land buf.pc frame = some frame') :
    s.longjmp land buf =
      some ⟨buf.stack, Function.update s.frames buf.stack (frame' :: below)⟩ := by
  have hLength : (s.frames buf.stack).length = above.length + buf.depth := by
    rw [hFrames, hDepth, List.length_append, List.length_cons]
  have hDrop : (s.frames buf.stack).drop ((s.frames buf.stack).length - buf.depth) =
      frame :: below := by
    rw [hLength, Nat.add_sub_cancel, hFrames, List.drop_left]
  unfold longjmp
  dsimp only
  rw [if_neg (by omega), hDrop]
  dsimp only
  rw [hLand, Option.map_some]

end Stacks
end DpdkPerf
