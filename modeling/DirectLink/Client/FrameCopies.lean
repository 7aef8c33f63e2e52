import Mathlib.Algebra.Group.Nat.Defs
import Mathlib.Data.Fin.VecNotation
import Mathlib.Data.Fintype.Basic
import Mathlib.Tactic.FinCases

/-!
# Copies of I420 pictures

The three places that copy the planes of a picture row by row: `CameraCapture::captureLoop`, the
preview callback of `CameraSessionController::start` and `FrameReader::pushFrame`.  A plane is the
memory from its first byte on.  Signed arithmetic that overflows has no result.
-/

namespace DirectLink

namespace FrameCopies

abbrev Plane : Type := Nat → BitVec 8

/-- The planes Y, U and V. -/
abbrev Planes : Type := Fin 3 → Plane

/-! ### Rows -/

/-- `std::memcpy(dst + target, src + start, count)`. -/
def memcpy (dst : Plane) (target : Nat) (src : Plane) (start count : Nat) : Plane :=
  fun i => if target ≤ i ∧ i < target + count then src (start + (i - target)) else dst i

/-- A value of a signed type of some bits. -/
def signed (bits value : Nat) : Option Nat :=
  if value < 2 ^ (bits - 1) then some value else none

/-- Where the bytes of a plane's rows lie in the source and in the destination. -/
structure Strides : Type where
  src : Nat
  dst : Nat

/-- The loop over the rows of a plane, whose offsets are computed in a type of some bits. -/
def copyRows (bits : Nat) (stride : Strides) (copyWidth : Nat) (src : Plane) :
    Nat → Plane → Option Plane
  | 0, dst => some dst
  | row + 1, dst => do
    let dst ← copyRows bits stride copyWidth src row dst
    let target ← signed bits (row * stride.dst)
    let start ← signed bits (row * stride.src)
    return memcpy dst target src start copyWidth

/-- The offsets of so many rows are in range. -/
def Fits (bits : Nat) (stride : Strides) (rows : Nat) : Prop :=
  ∀ row < rows, row * stride.dst < 2 ^ (bits - 1) ∧ row * stride.src < 2 ^ (bits - 1)

/-- The destination after so many rows. -/
def rowsCopied (stride : Strides) (copyWidth : Nat) (src dst : Plane) (rows : Nat) : Plane :=
  fun i => if i / stride.dst < rows ∧ i % stride.dst < copyWidth then
    src (i / stride.dst * stride.src + i % stride.dst) else dst i

section Rows

variable {bits copyWidth rows : Nat} {stride : Strides} {src dst : Plane}

theorem signed_eq_some {value : Nat} {result : Nat} :
    signed bits value = some result ↔ value < 2 ^ (bits - 1) ∧ result = value := by
  rw [signed]
  split
  · next inside => simp [inside, eq_comm]
  · next outside => simp [outside]

theorem memcpy_rowsCopied (positive : 0 < stride.dst) (le : copyWidth ≤ stride.dst) :
    memcpy (rowsCopied stride copyWidth src dst rows) (rows * stride.dst) src (rows * stride.src)
      copyWidth = rowsCopied stride copyWidth src dst (rows + 1) := by
  funext i
  have split := Nat.div_add_mod i stride.dst
  have rest := Nat.mod_lt i positive
  rw [memcpy]
  by_cases here : i / stride.dst = rows
  case pos =>
    rw [here, Nat.mul_comm] at split
    by_cases inside : i % stride.dst < copyWidth
    · rw [if_pos (by omega), rowsCopied, if_pos ⟨by omega, inside⟩, here]
      congr 1
      omega
    · rw [if_neg (by omega), rowsCopied, rowsCopied, if_neg (by omega), if_neg (by omega)]
  case neg =>
    have away : ¬ (rows * stride.dst ≤ i ∧ i < rows * stride.dst + copyWidth) := by
      intro holds
      rcases holds with ⟨above, below⟩
      have low := (Nat.le_div_iff_mul_le positive).mpr above
      have high : i / stride.dst < rows + 1 :=
        (Nat.div_lt_iff_lt_mul positive).mpr (by rw [Nat.add_mul]; omega)
      omega
    have same : i / stride.dst < rows ↔ i / stride.dst < rows + 1 := by omega
    rw [if_neg away, rowsCopied, rowsCopied]
    simp only [same]

/-- What the loop over the rows does, and when it is defined. -/
theorem copyRows_eq_some {dst' : Plane} (positive : 0 < stride.dst) (le : copyWidth ≤ stride.dst) :
    copyRows bits stride copyWidth src rows dst = some dst' ↔
      Fits bits stride rows ∧ dst' = rowsCopied stride copyWidth src dst rows := by
  induction rows generalizing dst' with
  | zero =>
    have start : rowsCopied stride copyWidth src dst 0 = dst := by
      funext i
      rw [rowsCopied, if_neg fun copied => Nat.not_lt_zero _ copied.1]
    have fits : Fits bits stride 0 := fun row impossible => absurd impossible (Nat.not_lt_zero row)
    rw [copyRows, start, Option.some.injEq, eq_comm]
    exact (and_iff_right fits).symm
  | succ rows ih =>
    have more : Fits bits stride (rows + 1) ↔ Fits bits stride rows ∧
        rows * stride.dst < 2 ^ (bits - 1) ∧ rows * stride.src < 2 ^ (bits - 1) :=
      Nat.forall_lt_succ_right
    simp only [copyRows, Option.bind_eq_bind, Option.bind_eq_some_iff, ih, signed_eq_some,
      Option.pure_def, Option.some.injEq, more]
    constructor
    · intro holds
      rcases holds with ⟨_, ⟨fits, rfl⟩, _, ⟨target, rfl⟩, _, ⟨start, rfl⟩, rfl⟩
      exact ⟨⟨fits, target, start⟩, memcpy_rowsCopied positive le⟩
    · intro holds
      rcases holds with ⟨⟨fits, target, start⟩, rfl⟩
      exact ⟨_, ⟨fits, rfl⟩, _, ⟨target, rfl⟩, _, ⟨start, rfl⟩, memcpy_rowsCopied positive le⟩

end Rows

/-! ### Pictures -/

/-- A picture to be copied, in `int`s. -/
structure Picture : Type where
  width : Nat
  height : Nat
  stride : Fin 3 → Strides
  width_pos : 0 < width
  height_pos : 0 < height
  height_lt : height < 2 ^ 31
  /-- No stride is smaller than the width of its plane. -/
  wide : ∀ plane, (if plane = 0 then width else (width + 1) / 2) ≤ min (stride plane).src
    (stride plane).dst
  strides_lt : ∀ plane, (stride plane).src < 2 ^ 31 ∧ (stride plane).dst < 2 ^ 31

namespace Picture

variable (g : Picture)

/-- The samples of a row: the chroma planes have half of them, rounded up. -/
def planeWidth (plane : Fin 3) : Nat :=
  if plane = 0 then g.width else (g.width + 1) / 2

/-- The rows. -/
def planeHeight (plane : Fin 3) : Nat :=
  if plane = 0 then g.height else (g.height + 1) / 2

/-- All samples of the source are in the destination. -/
def Transferred (src dst : Planes) : Prop :=
  ∀ plane x y, x < g.planeWidth plane → y < g.planeHeight plane →
    dst plane (y * (g.stride plane).dst + x) = src plane (y * (g.stride plane).src + x)

end Picture

/-! ### The three copies -/

/-- One copy for each plane. -/
def eachPlane (copy : Fin 3 → Option Plane) : Option Planes := do
  let y ← copy 0
  let u ← copy 1
  let v ← copy 2
  return ![y, u, v]

/-- `plane_height` in `CameraCapture::captureLoop`. -/
def capturedHeight (g : Picture) (plane : Fin 3) : Option Nat :=
  if plane = 0 then some g.height else (signed 32 (g.height + 1)).map (· / 2)

/-- A round of the loop of `CameraCapture::captureLoop` over the planes. -/
def capturePlane (g : Picture) (plane : Fin 3) (src dst : Plane) : Option Plane := do
  let planeHeight ← capturedHeight g plane
  let copyWidth := min (g.stride plane).src (g.stride plane).dst
  copyRows 64 (g.stride plane) copyWidth src planeHeight dst

/-- `CameraCapture::captureLoop`. -/
def captureLoop (g : Picture) (src dst : Planes) : Option Planes :=
  eachPlane fun plane => capturePlane g plane (src plane) (dst plane)

/-- A round of the loop of the preview callback over the planes. -/
def previewPlane (g : Picture) (plane : Fin 3) (src dst : Plane) : Option Plane :=
  let planeH := if plane = 0 then g.height else g.height / 2
  let copyW := min (g.stride plane).src (g.stride plane).dst
  copyRows 64 (g.stride plane) copyW src planeH dst

/-- The preview callback of `CameraSessionController::start`. -/
def previewCallback (g : Picture) (src dst : Planes) : Option Planes :=
  eachPlane fun plane => previewPlane g plane (src plane) (dst plane)

/-- `FrameReader::pushFrame`. -/
def pushFrame (g : Picture) (src dst : Planes) : Option Planes :=
  eachPlane ![
    copyRows 32 (g.stride 0) g.width (src 0) g.height (dst 0),
    copyRows 32 (g.stride 1) (g.width / 2) (src 1) (g.height / 2) (dst 1),
    copyRows 32 (g.stride 2) (g.width / 2) (src 2) (g.height / 2) (dst 2)]

/-- A copy transfers a whole picture, whatever was in the destination. -/
def TransfersAll (copy : Picture → Planes → Planes → Option Planes) (g : Picture) : Prop :=
  ∀ src dst, ∃ dst', copy g src dst = some dst' ∧ g.Transferred src dst'

/-! ### What is transferred -/

/-- The copy of one plane transfers its samples. -/
def PlaneTransferred (g : Picture) (plane : Fin 3) (copy : Plane → Plane → Option Plane) : Prop :=
  ∀ src dst, ∃ dst', copy src dst = some dst' ∧
    ∀ x y, x < g.planeWidth plane → y < g.planeHeight plane →
      dst' (y * (g.stride plane).dst + x) = src (y * (g.stride plane).src + x)

section Complete

variable {g : Picture} {plane : Fin 3}

theorem Picture.planeWidth_pos : 0 < g.planeWidth plane := by
  have positive := g.width_pos
  rw [planeWidth]
  split <;> omega

theorem Picture.planeHeight_pos : 0 < g.planeHeight plane := by
  have positive := g.height_pos
  rw [planeHeight]
  split <;> omega

theorem Picture.planeWidth_le : g.planeWidth plane ≤ (g.stride plane).src ∧
    g.planeWidth plane ≤ (g.stride plane).dst :=
  Nat.le_min.mp (g.wide plane)

/-- Offsets of 64 bits are always in range. -/
theorem Picture.fits_ptrdiff {rows : Nat} (few : rows ≤ g.height) :
    Fits 64 (g.stride plane) rows := by
  intro row inside
  have high := g.height_lt
  obtain ⟨src, dst⟩ := g.strides_lt plane
  have below : row < 2 ^ 31 := by omega
  have target := Nat.mul_lt_mul'' below dst
  have start := Nat.mul_lt_mul'' below src
  constructor <;> omega

theorem eachPlane_eq_some {copy : Fin 3 → Option Plane} {planes : Planes} :
    eachPlane copy = some planes ↔ ∀ plane, copy plane = some (planes plane) := by
  simp only [eachPlane, Option.bind_eq_bind, Option.bind_eq_some_iff, Option.pure_def,
    Option.some.injEq, Fin.forall_fin_succ]
  constructor
  · intro holds
    rcases holds with ⟨y, luma, u, blue, v, red, rfl⟩
    exact ⟨luma, blue, red, fun impossible => impossible.elim0⟩
  · intro holds
    rcases holds with ⟨luma, blue, red, -⟩
    refine ⟨_, luma, _, blue, _, red, ?_⟩
    funext plane
    fin_cases plane <;> rfl

/-- A picture is transferred when each plane is. -/
theorem transfersAll_iff (copy : Picture → Planes → Planes → Option Planes)
    (one : Fin 3 → Plane → Plane → Option Plane)
    (each : ∀ src dst, copy g src dst = eachPlane fun plane => one plane (src plane) (dst plane)) :
    TransfersAll copy g ↔ ∀ plane, PlaneTransferred g plane (one plane) := by
  constructor
  · intro all plane src dst
    obtain ⟨dst', copied, transferred⟩ := all (fun _ => src) (fun _ => dst)
    rw [each, eachPlane_eq_some] at copied
    exact ⟨dst' plane, copied plane, transferred plane⟩
  · intro all src dst
    choose dst' copied transferred using fun plane => all plane (src plane) (dst plane)
    exact ⟨dst', by rw [each, eachPlane_eq_some]; exact copied, transferred⟩

/-- The rows and columns that a loop has to copy. -/
theorem planeTransferred_iff {bits rows copyWidth : Nat}
    (le : copyWidth ≤ (g.stride plane).dst) :
    PlaneTransferred g plane
        (fun src dst => copyRows bits (g.stride plane) copyWidth src rows dst) ↔
      g.planeHeight plane ≤ rows ∧ g.planeWidth plane ≤ copyWidth ∧
        Fits bits (g.stride plane) rows := by
  have wide := (Picture.planeWidth_le : g.planeWidth plane ≤ _ ∧ _).2
  have columns := (Picture.planeWidth_pos : 0 < g.planeWidth plane)
  have lines := (Picture.planeHeight_pos : 0 < g.planeHeight plane)
  have positive : 0 < (g.stride plane).dst := by omega
  have place {x y : Nat} (inside : x < g.planeWidth plane) :
      (y * (g.stride plane).dst + x) / (g.stride plane).dst = y ∧
        (y * (g.stride plane).dst + x) % (g.stride plane).dst = x := by
    rw [Nat.add_comm, Nat.add_mul_div_right _ _ positive, Nat.add_mul_mod_self_right,
      Nat.div_eq_of_lt (by omega), Nat.mod_eq_of_lt (by omega), Nat.zero_add]
    exact ⟨rfl, rfl⟩
  constructor
  · intro all
    -- ones are copied over zeros: the last sample of the last row is one at the end
    obtain ⟨dst', copied, transferred⟩ := all (fun _ => 1) (fun _ => 0)
    obtain ⟨fits, rfl⟩ := (copyRows_eq_some positive le).mp copied
    have last := transferred (g.planeWidth plane - 1) (g.planeHeight plane - 1) (by omega)
      (by omega)
    obtain ⟨row, column⟩ := place (y := g.planeHeight plane - 1)
      (show g.planeWidth plane - 1 < g.planeWidth plane by omega)
    rw [rowsCopied, row, column] at last
    split at last
    · next inside => exact ⟨by omega, by omega, fits⟩
    · cases last
  · intro holds src dst
    rcases holds with ⟨high, long, fits⟩
    refine ⟨_, (copyRows_eq_some positive le).mpr ⟨fits, rfl⟩, ?_⟩
    intro x y insideX insideY
    obtain ⟨row, column⟩ := place (y := y) insideX
    rw [rowsCopied, row, column, if_pos ⟨by omega, by omega⟩]

theorem captureLoop_complete_iff :
    TransfersAll captureLoop g ↔ g.height + 1 < 2 ^ 31 := by
  rw [transfersAll_iff captureLoop (capturePlane g) fun _ _ => rfl]
  constructor
  · intro all
    obtain ⟨dst', copied, -⟩ := all 1 (fun _ => 0) (fun _ => 0)
    obtain ⟨rows, checked, -⟩ := Option.bind_eq_some_iff.mp copied
    obtain ⟨height, inside, -⟩ := Option.map_eq_some_iff.mp checked
    exact (signed_eq_some.mp inside).1
  · intro inside plane
    have rows : capturedHeight g plane = some (g.planeHeight plane) := by
      rw [capturedHeight, Picture.planeHeight, signed_eq_some.mpr ⟨inside, rfl⟩]
      split <;> rfl
    have loop : capturePlane g plane = fun src dst => copyRows 64 (g.stride plane)
        (min (g.stride plane).src (g.stride plane).dst) src (g.planeHeight plane) dst := by
      funext src dst
      rw [capturePlane, rows]
      rfl
    rw [loop, planeTransferred_iff (Nat.min_le_right ..)]
    refine ⟨le_rfl, g.wide plane, g.fits_ptrdiff ?_⟩
    have positive := g.height_pos
    rw [Picture.planeHeight]
    split <;> omega

theorem previewCallback_complete_iff :
    TransfersAll previewCallback g ↔ g.height % 2 = 0 := by
  rw [transfersAll_iff previewCallback (previewPlane g) fun _ _ => rfl]
  have one (plane : Fin 3) : PlaneTransferred g plane (previewPlane g plane) ↔ _ :=
    planeTransferred_iff (Nat.min_le_right ..)
  constructor
  · intro all
    obtain ⟨high, -⟩ := (one 1).mp (all 1)
    rw [Picture.planeHeight, if_neg (by decide), if_neg (by decide)] at high
    omega
  · intro even plane
    refine (one plane).mpr ⟨?_, g.wide plane, g.fits_ptrdiff ?_⟩
    · rw [Picture.planeHeight]
      split <;> omega
    · split <;> omega

theorem pushFrame_complete_iff :
    TransfersAll pushFrame g ↔ g.width % 2 = 0 ∧ g.height % 2 = 0 ∧
      ∀ plane, Fits 32 (g.stride plane) (g.planeHeight plane) := by
  rw [transfersAll_iff pushFrame (fun plane src dst =>
    copyRows 32 (g.stride plane) (if plane = 0 then g.width else g.width / 2) src
      (if plane = 0 then g.height else g.height / 2) dst) (by
    intro src dst
    rw [pushFrame]
    congr 1
    funext plane
    fin_cases plane <;> rfl)]
  have narrow (plane : Fin 3) :
      (if plane = 0 then g.width else g.width / 2) ≤ (g.stride plane).dst := by
    have wide := (Picture.planeWidth_le : g.planeWidth plane ≤ _ ∧ _).2
    rw [Picture.planeWidth] at wide
    split at wide <;> split <;> omega
  simp only [planeTransferred_iff (narrow _)]
  have half (width height : Nat) (even : width % 2 = 0 ∧ height % 2 = 0) (plane : Fin 3) :
      (if plane = 0 then height else (height + 1) / 2) =
        if plane = 0 then height else height / 2 := by
    split <;> omega
  constructor
  · intro all
    have chroma := all 1
    rw [Picture.planeHeight, Picture.planeWidth, if_neg (by decide), if_neg (by decide),
      if_neg (by decide), if_neg (by decide)] at chroma
    have even : g.width % 2 = 0 ∧ g.height % 2 = 0 := by omega
    refine ⟨even.1, even.2, fun plane => ?_⟩
    rw [Picture.planeHeight, half g.width g.height even]
    exact (all plane).2.2
  · intro holds plane
    rcases holds with ⟨evenWidth, evenHeight, fits⟩
    have fits := fits plane
    rw [Picture.planeHeight, half g.width g.height ⟨evenWidth, evenHeight⟩] at fits
    refine ⟨?_, ?_, fits⟩
    · rw [Picture.planeHeight]
      split <;> omega
    · rw [Picture.planeWidth]
      split <;> omega

end Complete

/-! ### Every copy -/

inductive CopyPath : Type
  | captureLoop
  | previewCallback
  | pushFrame

def CopyPath.copy : CopyPath → Picture → Planes → Planes → Option Planes
  | captureLoop => FrameCopies.captureLoop
  | previewCallback => FrameCopies.previewCallback
  | pushFrame => FrameCopies.pushFrame

/-- The pictures that a path copies as a whole. -/
def CopyPath.Complete : CopyPath → Picture → Prop
  | captureLoop, g => g.height + 1 < 2 ^ 31
  | previewCallback, g => g.height % 2 = 0
  | pushFrame, g => g.width % 2 = 0 ∧ g.height % 2 = 0 ∧
      ∀ plane, Fits 32 (g.stride plane) (g.planeHeight plane)

/-- **Which pictures are copied as a whole**, on each path. -/
theorem transfersAll_iff_complete (path : CopyPath) (g : Picture) :
    TransfersAll path.copy g ↔ path.Complete g := by
  cases path with
  | captureLoop => exact captureLoop_complete_iff
  | previewCallback => exact previewCallback_complete_iff
  | pushFrame => exact pushFrame_complete_iff

/-- Three rows of three samples, without padding. -/
def threeByThree : Picture where
  width := 3
  height := 3
  stride plane := if plane = 0 then ⟨3, 3⟩ else ⟨2, 2⟩
  width_pos := by decide
  height_pos := by decide
  height_lt := by decide
  wide := by decide
  strides_lt := by decide

/-- The last column and the last row of chroma samples of a small picture are not copied. -/
theorem chroma_edge_lost : ¬ ∀ (path : CopyPath) (g : Picture), TransfersAll path.copy g := by
  intro all
  obtain ⟨even, -⟩ := pushFrame_complete_iff.mp (all .pushFrame threeByThree)
  cases even

end FrameCopies

end DirectLink
