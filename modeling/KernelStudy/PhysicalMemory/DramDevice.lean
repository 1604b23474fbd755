import KernelStudy.Foundations.MachineWord
import KernelStudy.Foundations.CellMemory
import KernelStudy.Foundations.LabelledRun

namespace KernelStudy
namespace PhysicalMemory

open MachineWord

/-!
# The `dram` character device

The device presents physical memory as a read-only file.  `my_read` maps the
page that holds the file position, clips the request to the end of that page
and copies it to the user.  `my_llseek` moves the position.  Both mix signed
file offsets with `unsigned long` sizes, and the position is divided into two
`int` variables; the definitions keep every one of these conversions.

The outcome of a read lists the physical addresses whose bytes reached the
user buffer, in order, together with the returned value and the position that
the VFS stores back.  Bytes copied before a fault are listed as well, since
the user can see them.
-/

/-! ## Constants of the driver and of the kernel interface -/

/-- The end of the device, as `dram_init` sets it.  It is not a multiple of the page size. -/
def dramSize : UInt64 := 0x25f5ffff8

def pageSize : UInt64 := 4096

/-- The largest count that the VFS passes to a read method. -/
def maxRwCount : UInt64 := 0x7ffff000

def efault : Int64 := 14

def einval : Int64 := 22

/-! ## The two file operations -/

structure ReadOutcome where
  ret : Int64
  pos : Int64
  source : List Nat
deriving DecidableEq, Repr

structure SeekOutcome where
  ret : Int64
  fPos : Int64
deriving DecidableEq, Repr

/-- The number of bytes that `copy_to_user` leaves uncopied when `writable`
bytes of the user buffer can be written. -/
def copyToUser (count : UInt64) (writable : Nat) : UInt64 :=
  UInt64.ofNat (count.toNat - writable)

/-- The physical address behind `kmap(pfn_to_page(page_number)) + page_indent`. -/
def mappedAddress (pageNumber pageIndent : Int32) : Nat :=
  pageNumber.toInt64.toUInt64.toNat * pageSize.toNat + pageIndent.toInt64.toUInt64.toNat

/-- The count after the end of the mapped page has been respected. -/
def clipToPage (pageIndent : Int32) (count : UInt64) : UInt64 :=
  if pageIndent.toInt64.toUInt64 + count > pageSize
  then pageSize - pageIndent.toInt64.toUInt64
  else count

def myRead (count : UInt64) (writable : Nat) (pos : Int64) : ReadOutcome :=
  -- we cannot read beyond the end-of-file
  if pos.toUInt64 ≥ dramSize then ⟨0, pos, []⟩
  else
    let pageNumber := (pos.toUInt64 / pageSize).toUInt32.toInt32
    let pageIndent := (pos.toUInt64 % pageSize).toUInt32.toInt32
    let clipped := clipToPage pageIndent count
    let uncopied := copyToUser clipped writable
    let more := uncopied.toUInt32.toInt32
    let source := (List.range (clipped.toNat - uncopied.toNat)).map
      (fun offset => mappedAddress pageNumber pageIndent + offset)
    -- an error occurred if less than count bytes got copied
    if more ≠ 0 then ⟨-efault, pos, source⟩
    else ⟨clipped.toInt64, (pos.toUInt64 + clipped).toInt64, source⟩

/-- The `switch` of `my_llseek`: no case matches another `whence`, and the
initial value `-1` remains. -/
def seekTarget (fPos offset : Int64) (whence : Int32) : Int64 :=
  if whence = 0 then offset
  else if whence = 1 then fPos + offset
  else if whence = 2 then (dramSize + offset.toUInt64).toInt64
  else -1

def myLlseek (fPos offset : Int64) (whence : Int32) : SeekOutcome :=
  let newpos := seekTarget fPos offset whence
  if newpos < 0 \/ newpos.toUInt64 > dramSize then ⟨-einval, fPos⟩ else ⟨newpos, newpos⟩

/-! ## What one read does

A position inside the device is a natural number below `dramSize`, so the
`int` variables hold the exact quotient and remainder, and the copy starts at
the position itself. -/

/-- The number of bytes that a read at `position` asks of its page. -/
def pageTransfer (position count : Nat) : Nat :=
  min count (4096 - position % 4096)

theorem myRead_at_end {count : UInt64} {writable : Nat} {pos : Int64}
    (atEnd : dramSize ≤ pos.toUInt64) : myRead count writable pos = ⟨0, pos, []⟩ :=
  if_pos atEnd

section Inside

variable {pos : Int64} {position : Nat}

theorem toNat_pos (exactPos : pos.toInt = position) : pos.toUInt64.toNat = position := by
  have nonneg : 0 ≤ pos.toInt := by omega
  have widened := toNat_toUInt64_of_nonneg nonneg
  omega

theorem toNat_pageNumber (exactPos : pos.toInt = position) (inside : position < dramSize.toNat) :
    (pos.toUInt64 / pageSize).toUInt32.toInt32.toInt64.toUInt64.toNat = position / 4096 := by
  have quotient : (pos.toUInt64 / pageSize).toNat = position / 4096 := by
    rw [UInt64.toNat_div, toNat_pos exactPos]
    rfl
  have size : dramSize.toNat = 10190061560 := rfl
  rw [toNat_widen_narrow_of_lt (by omega), quotient]

theorem toNat_pageIndent (exactPos : pos.toInt = position) :
    (pos.toUInt64 % pageSize).toUInt32.toInt32.toInt64.toUInt64.toNat = position % 4096 := by
  have remainder : (pos.toUInt64 % pageSize).toNat = position % 4096 := by
    rw [UInt64.toNat_mod, toNat_pos exactPos]
    rfl
  rw [toNat_widen_narrow_of_lt (by omega), remainder]

/-- The mapped page and the indent inside it name the position itself. -/
theorem mappedAddress_eq (exactPos : pos.toInt = position) (inside : position < dramSize.toNat) :
    mappedAddress (pos.toUInt64 / pageSize).toUInt32.toInt32
      (pos.toUInt64 % pageSize).toUInt32.toInt32 = position := by
  have size : pageSize.toNat = 4096 := rfl
  rw [mappedAddress, toNat_pageNumber exactPos inside, toNat_pageIndent exactPos, size]
  omega

theorem toNat_clipToPage (exactPos : pos.toInt = position) {count : UInt64}
    (bounded : count ≤ maxRwCount) :
    (clipToPage (pos.toUInt64 % pageSize).toUInt32.toInt32 count).toNat =
      pageTransfer position count.toNat := by
  have indent := toNat_pageIndent exactPos
  have limit : count.toNat ≤ 2147479552 := UInt64.le_iff_toNat_le.mp bounded
  have size : pageSize.toNat = 4096 := rfl
  have sum : ((pos.toUInt64 % pageSize).toUInt32.toInt32.toInt64.toUInt64 + count).toNat =
      position % 4096 + count.toNat := by
    rw [UInt64.toNat_add, indent]
    omega
  rw [clipToPage, pageTransfer]
  split
  · rename_i beyond
    have beyondNat := UInt64.lt_iff_toNat_lt.mp beyond
    rw [UInt64.toNat_sub, indent, size]
    omega
  · rename_i within
    have withinNat : ¬ pageSize.toNat < _ := fun less => within (UInt64.lt_iff_toNat_lt.mpr less)
    omega

/-- The complete effect of a read that starts inside the device.  The copy
starts at the position, covers the clipped count or what the user buffer can
take of it, and moves the position only when nothing was left uncopied. -/
theorem myRead_inside (exactPos : pos.toInt = position) (inside : position < dramSize.toNat)
    {count : UInt64} (bounded : count ≤ maxRwCount) (writable : Nat) :
    (myRead count writable pos).source =
        (List.range (min (pageTransfer position count.toNat) writable)).map
          (fun offset => position + offset) /\
      (writable < pageTransfer position count.toNat ->
        (myRead count writable pos).ret = -efault /\ (myRead count writable pos).pos = pos) /\
      (pageTransfer position count.toNat ≤ writable ->
        (myRead count writable pos).ret.toInt = pageTransfer position count.toNat /\
          (myRead count writable pos).pos.toInt = position + pageTransfer position count.toNat) := by
  have size : dramSize.toNat = 10190061560 := rfl
  have before : ¬ pos.toUInt64 ≥ dramSize := by
    intro atEnd
    have atEndNat := UInt64.le_iff_toNat_le.mp atEnd
    rw [toNat_pos exactPos] at atEndNat
    omega
  have clipped := toNat_clipToPage exactPos bounded
  have small : pageTransfer position count.toNat ≤ 4096 := by
    rw [pageTransfer]
    omega
  have uncopied : (copyToUser (clipToPage (pos.toUInt64 % pageSize).toUInt32.toInt32 count)
      writable).toNat = pageTransfer position count.toNat - writable := by
    rw [copyToUser, clipped, UInt64.toNat_ofNat_of_lt' (by simp only [UInt64.size]; omega)]
  have more : (copyToUser (clipToPage (pos.toUInt64 % pageSize).toUInt32.toInt32 count)
      writable).toUInt32.toInt32.toInt = (pageTransfer position count.toNat - writable : Nat) := by
    rw [toInt_narrow_of_lt (by omega), uncopied]
  have copied : pageTransfer position count.toNat - (pageTransfer position count.toNat - writable) =
      min (pageTransfer position count.toNat) writable := by omega
  simp only [myRead, if_neg before, mappedAddress_eq exactPos inside, uncopied, clipped, copied]
  -- `more` is zero exactly when the user buffer takes the whole transfer
  by_cases faulted : writable < pageTransfer position count.toNat
  · have nonzero : (copyToUser (clipToPage (pos.toUInt64 % pageSize).toUInt32.toInt32 count)
        writable).toUInt32.toInt32 ≠ 0 := by
      intro zero
      rw [zero, Int32.toInt_zero] at more
      omega
    rw [if_pos nonzero]
    exact ⟨rfl, fun _ => ⟨rfl, rfl⟩, fun complete => absurd faulted (Nat.not_lt_of_le complete)⟩
  · have zero : (copyToUser (clipToPage (pos.toUInt64 % pageSize).toUInt32.toInt32 count)
        writable).toUInt32.toInt32 = 0 := by
      apply Int32.toInt_inj.mp
      rw [more, Int32.toInt_zero]
      omega
    have sum : (pos.toUInt64 + clipToPage (pos.toUInt64 % pageSize).toUInt32.toInt32 count).toNat =
        position + pageTransfer position count.toNat := by
      rw [UInt64.toNat_add, toNat_pos exactPos, clipped]
      omega
    rw [if_neg (not_not_intro zero)]
    refine ⟨rfl, fun less => absurd less faulted, fun _complete => ⟨?_, ?_⟩⟩
    · rw [toInt_toInt64_of_lt (by omega), clipped]
    · rw [toInt_toInt64_of_lt (by omega), sum]
      omega

end Inside

/-! ## What one seek does -/

/-- A seek either rejects and keeps the position, or moves it into the
closed range from zero to the end of the device. -/
theorem myLlseek_cases (fPos offset : Int64) (whence : Int32) :
    myLlseek fPos offset whence = ⟨-einval, fPos⟩ \/
      Exists fun newpos : Int64 => 0 ≤ newpos.toInt /\ newpos.toInt ≤ dramSize.toNat /\
        myLlseek fPos offset whence = ⟨newpos, newpos⟩ := by
  by_cases rejected : seekTarget fPos offset whence < 0 \/
      (seekTarget fPos offset whence).toUInt64 > dramSize
  · exact Or.inl (if_pos rejected)
  · have accepted := not_or.mp rejected
    have nonneg := Int64.le_iff_toInt_le.mp (Int64.not_lt.mp accepted.1)
    rw [Int64.toInt_zero] at nonneg
    have upper := UInt64.le_iff_toNat_le.mp (UInt64.not_lt.mp accepted.2)
    have exact_ := toNat_toUInt64_of_nonneg nonneg
    exact Or.inr ⟨_, nonneg, by omega, if_neg rejected⟩

/-! ## Runs of an open file -/

/-- One system call on the open file.  The VFS bounds the count; `writable`
says how many bytes of the user buffer can be written before a fault. -/
inductive Call where
  | llseek (offset : Int64) (whence : Int32)
  | read (count : UInt64) (bounded : count ≤ maxRwCount) (writable : Nat)

/-- The file position, and every physical address delivered so far. -/
structure OpenFile where
  fPos : Int64
  delivered : List Nat
deriving DecidableEq

def opened : OpenFile := ⟨0, []⟩

/-- The VFS passes the position in and stores the updated one back. -/
def fileStep (file : OpenFile) : Call -> Option OpenFile
  | .llseek offset whence =>
      some { file with fPos := (myLlseek file.fPos offset whence).fPos }
  | .read count _ writable =>
      let outcome := myRead count writable file.fPos
      some ⟨outcome.pos, file.delivered ++ outcome.source⟩

/-- The position is inside the closed device range, and no byte at or above
the end of the device has been delivered. -/
def WithinDevice (file : OpenFile) : Prop :=
  0 ≤ file.fPos.toInt /\ file.fPos.toInt ≤ dramSize.toNat /\
    forall address, address ∈ file.delivered -> address < dramSize.toNat

/-- The call does not read across the end of the device: a read that starts
in the page holding the end asks for, or can store, no more bytes than are
left before it.  Seeks and reads in every other page are unrestricted. -/
def StaysInside (file : OpenFile) : Call -> Prop
  | .llseek _ _ => True
  | .read count _ writable =>
      file.fPos.toInt < dramSize.toNat ->
      file.fPos.toInt / 4096 = dramSize.toNat / 4096 ->
      file.fPos.toInt + min count.toNat writable ≤ dramSize.toNat

theorem opened_withinDevice : WithinDevice opened := by
  refine ⟨by decide, by decide, ?_⟩
  intro address member
  cases member

/-- A seek never leaves the device, whatever its offset and origin. -/
theorem llseek_withinDevice {file : OpenFile} (within : WithinDevice file)
    (offset : Int64) (whence : Int32) :
    WithinDevice { file with fPos := (myLlseek file.fPos offset whence).fPos } := by
  rcases myLlseek_cases file.fPos offset whence with rejected | ⟨newpos, nonneg, upper, moved⟩
  · rw [rejected]
    exact within
  · rw [moved]
    exact ⟨nonneg, upper, within.2.2⟩

/-- The last delivered address of a transfer decides whether all of them are
below a bound. -/
theorem all_below_iff (start length bound : Nat) (startBelow : start ≤ bound) :
    (forall address, address ∈ (List.range length).map (fun offset => start + offset) ->
      address < bound) <-> start + length ≤ bound := by
  simp only [List.mem_map, List.mem_range, forall_exists_index, and_imp, forall_apply_eq_imp_iff₂]
  constructor
  · intro below
    cases length with
    | zero => exact startBelow
    | succ length => exact below length (Nat.lt_succ_self length)
  · intro fits offset bounded
    omega

/-- A read keeps the device invariant exactly when it does not cross the end.
In any page but the last the clipping already ends below `dramSize`; in the
last page the page end lies beyond it, so the clipping does not help. -/
theorem read_withinDevice_iff {file : OpenFile} (within : WithinDevice file)
    (count : UInt64) (bounded : count ≤ maxRwCount) (writable : Nat) :
    WithinDevice ⟨(myRead count writable file.fPos).pos,
        file.delivered ++ (myRead count writable file.fPos).source⟩ <->
      StaysInside file (.read count bounded writable) := by
  have size : dramSize.toNat = 10190061560 := rfl
  have exactPos : file.fPos.toInt = (file.fPos.toInt.toNat : Nat) := by
    have nonneg := within.1
    omega
  by_cases inside : file.fPos.toInt.toNat < dramSize.toNat
  · rcases myRead_inside exactPos inside bounded writable with ⟨source, faulted, complete⟩
    have addresses := all_below_iff file.fPos.toInt.toNat
      (min (pageTransfer file.fPos.toInt.toNat count.toNat) writable) dramSize.toNat (by omega)
    rw [← source] at addresses
    have transfer : pageTransfer file.fPos.toInt.toNat count.toNat =
      min count.toNat (4096 - file.fPos.toInt.toNat % 4096) := rfl
    constructor
    · intro after _ lastPage
      have fits := addresses.mp (fun address member =>
        after.2.2 address (List.mem_append.mpr (Or.inr member)))
      omega
    · intro stays
      simp only [StaysInside] at stays
      have fits : file.fPos.toInt.toNat +
          min (pageTransfer file.fPos.toInt.toNat count.toNat) writable ≤ dramSize.toNat := by
        by_cases lastPage : file.fPos.toInt / 4096 = dramSize.toNat / 4096
        · have least := stays (by omega) lastPage
          omega
        · omega
      have kept : forall address, address ∈ file.delivered ++ (myRead count writable file.fPos).source ->
          address < dramSize.toNat := by
        intro address member
        rcases List.mem_append.mp member with earlier | now
        · exact within.2.2 address earlier
        · exact addresses.mpr fits address now
      by_cases enough : writable < pageTransfer file.fPos.toInt.toNat count.toNat
      · rw [WithinDevice, (faulted enough).2]
        exact ⟨within.1, within.2.1, kept⟩
      · have moved := (complete (Nat.le_of_not_lt enough)).2
        refine ⟨?_, ?_, kept⟩ <;> simp only [moved] <;> omega
  · have atEnd : dramSize ≤ file.fPos.toUInt64 := by
      apply UInt64.le_iff_toNat_le.mpr
      rw [toNat_pos exactPos]
      omega
    rw [myRead_at_end atEnd]
    refine ⟨fun _ less _ => by omega, fun _ => ?_⟩
    simpa only [WithinDevice, List.append_nil] using within

/-- One call keeps the device invariant exactly when it stays inside. -/
theorem fileStep_withinDevice_iff (file : OpenFile) (call : Call) (next : OpenFile)
    (within : WithinDevice file) (taken : fileStep file call = some next) :
    WithinDevice next <-> StaysInside file call := by
  cases call with
  | llseek offset whence =>
      have same := Option.some.inj taken
      subst next
      exact ⟨fun _ => trivial, fun _ => llseek_withinDevice within offset whence⟩
  | read count bounded writable =>
      have same := Option.some.inj taken
      subst next
      exact read_withinDevice_iff within count bounded writable

/-- A run stays within the device in every state exactly when none of its
reads crosses the end of the device from inside the last page. -/
theorem run_withinDevice_iff (calls : List Call) :
    LabelledRun.AlongRun fileStep WithinDevice opened calls <->
      LabelledRun.RunMeets fileStep StaysInside opened calls :=
  LabelledRun.alongRun_iff_runMeets fileStep WithinDevice StaysInside
    fileStep_withinDevice_iff calls opened_withinDevice

/-- Sixteen bytes read eight bytes before the end: the page has room for all
of them, so the read delivers eight bytes from beyond `dram_size` and leaves
the position past the end. -/
theorem run_leaves_device :
    ¬ forall calls, LabelledRun.AlongRun fileStep WithinDevice opened calls := by
  intro always
  have along := always [.llseek 0x25f5ffff0 0, .read 16 (by decide) 16]
  have final := (along.2 ⟨0x25f5ffff0, []⟩ (by decide)).2
    ⟨0x25f600000, (List.range 16).map (fun offset => 0x25f5ffff0 + offset)⟩ (by decide)
  exact absurd final.2.1 (by decide)

end PhysicalMemory
end KernelStudy
