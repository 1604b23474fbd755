import KernelStudy.Foundations.LabelledRun
import KernelStudy.Fileview.Navigation
import KernelStudy.Fileview.Rendering
import KernelStudy.Fileview.HexViews

namespace KernelStudy
namespace Fileview

open LabelledRun

/-!
# The space that an output line takes

The hexadecimal part and the characters always take sixty-four places, and
one blank separates them from the address.  The address has a minimum width
of thirteen digits and no maximum, so the eighty bytes of `outline` hold a
line exactly when its address has at most fourteen digits.

How large an address gets is decided by the navigation.  The last row of the
last window is the largest one, and the END key reaches it.
-/

/-- The bytes of `outline`. -/
def outlineSize : Nat := 80

/-- The characters of a line and the final zero byte stay inside `outline`. -/
def FitsOutline (text : List Char) : Prop :=
  text.length + 1 ≤ outlineSize

/-- Every line that is rendered in a state fits. -/
def LinesFit (view : View) : Prop :=
  forall buffer line, line ∈ (renderLoop view.format view.position buffer).lines -> FitsOutline line.text

theorem length_formatHex_eq (width value : Nat) :
    (formatHex width value).length = max width (upperHex value).length := by
  rw [formatHex, List.length_append, List.length_replicate]
  omega

/-- A line fits exactly when its address has at most fourteen digits. -/
theorem fitsOutline_iff {format : Int32} (listed : format ∈ formats) (address : Nat) (row : Nat -> UInt8) :
    FitsOutline (outline format address row) <-> address < 16 ^ 14 := by
  have digits : (upperHex address).length ≤ 14 <-> address < 16 ^ 14 :=
    length_upperHex_le_iff (by decide)
  have characters : (asciiPart row).length = 16 := by
    rw [asciiPart, List.length_map, List.length_range]
  rw [FitsOutline, outlineSize, outline, List.length_append, List.length_append, List.length_append,
    length_hexPart listed, characters, length_formatHex_eq, List.length_singleton, ← digits]
  omega

/-- In a state of the navigation, the address of the last row decides. -/
theorem linesFit_iff {posmax : Int64} {view : View} (onPage : OnPage posmax view)
    (room : view.position.toInt + 240 < 2 ^ 63) :
    LinesFit view <-> view.position.toInt + 240 < 2 ^ 56 := by
  have nonneg := onPage.nonneg
  have limit : (16 : Nat) ^ 14 = 2 ^ 56 := by norm_num
  constructor
  · intro fit
    have line := fit (fun _ => 0) ⟨6 + 15, 2, outline view.format
      (view.position.toInt.toNat + 16 * 15) (bufferRow (fun _ => 0) 15)⟩ (by
        rw [renderLoop_lines view.format nonneg room]
        exact List.mem_map.mpr ⟨15, by decide, rfl⟩)
    have small := (fitsOutline_iff onPage.format _ _).mp line
    rw [limit] at small
    omega
  · intro below buffer line member
    rw [renderLoop_lines view.format nonneg room] at member
    rcases List.mem_map.mp member with ⟨i, row, same⟩
    have bound := List.mem_range.mp row
    subst line
    apply (fitsOutline_iff onPage.format _ _).mpr
    rw [limit]
    omega

/-- Every line of every window of a file fits into `outline`, exactly for
files of at most `2 ^ 56` bytes. -/
theorem lines_fit_iff (filesize : Int64) (nonneg : 0 ≤ filesize.toInt) :
    (forall keys view,
      run (iteration (posmaxOf filesize)) View.start.loopTop keys = some view ->
      view.done = false -> LinesFit view) <-> filesize.toInt ≤ 2 ^ 56 := by
  have bound := posmaxOf_bound nonneg
  have limit := toInt_posmaxOf nonneg
  have upper := filesize.toInt_lt
  constructor
  · intro every
    have first := start_onPage bound
    -- END leads from the start to the last window
    have moves : moveTarget (posmaxOf filesize) View.start.loopTop
        (Keypress.mk kbEnd []).command = some (posmaxOf filesize).toInt := rfl
    rcases iteration_move bound first rfl moves (by omega) (by omega) with
      ⟨next, taken, position, _increment, _format⟩
    have reached : run (iteration (posmaxOf filesize)) View.start.loopTop [⟨kbEnd, []⟩] = some next :=
      (run_cons _).mpr ⟨next, taken, rfl⟩
    have running : next.done = false := by
      rcases iteration_cases taken with ⟨bottom, body, top⟩
      rcases loopBody_cases body with ⟨_start, address, same⟩
      subst next bottom
      rfl
    have fit := (linesFit_iff (run_onPage bound reached) (by omega)).mp (every _ next reached running)
    omega
  · intro small keys view reached _running
    have onPage := run_onPage bound reached
    have below := onPage.le_posmax
    apply (linesFit_iff onPage (by omega)).mpr
    omega

/-- The last window of a file of `2 ^ 56` bytes. -/
theorem lines_fit_iff_largest :
    0 ≤ (0x100000000000000 : Int64).toInt /\
      LinesFit ⟨posmaxOf 0x100000000000000, 0x100, 1, false⟩ :=
  ⟨by decide, (lines_fit_iff 0x100000000000000 (by decide)).mpr (by decide) [⟨kbEnd, []⟩] _
    (by decide +kernel) rfl⟩

/-- One byte more, and the last line of the last window needs 81 bytes. -/
theorem line_overruns_outline :
    run (iteration (posmaxOf 0x100000000000001)) View.start.loopTop [⟨kbEnd, []⟩] =
        some ⟨0xFFFFFFFFFFFF10, 0x100, 1, false⟩ /\
      ¬ LinesFit ⟨0xFFFFFFFFFFFF10, 0x100, 1, false⟩ := by
  have reached : run (iteration (posmaxOf 0x100000000000001)) View.start.loopTop [⟨kbEnd, []⟩] =
      some ⟨0xFFFFFFFFFFFF10, 0x100, 1, false⟩ := by
    decide +kernel
  have onPage := run_onPage (posmaxOf_bound (by decide)) reached
  refine ⟨reached, fun fit => ?_⟩
  have below := (linesFit_iff onPage (by decide)).mp fit
  revert below
  decide

end Fileview
end KernelStudy
