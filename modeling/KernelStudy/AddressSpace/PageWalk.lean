import KernelStudy.Foundations.MachineWord

namespace KernelStudy
namespace AddressSpace

open MachineWord

/-!
# The software page walk and the hardware translation

`vaddr2paddr` follows the four levels of the x86-64 page tables by hand, with
the kernel's macros.  The processor follows the same tables with its own
rules: an entry counts only when its present bit is set, an entry of the
second or third level may map a large page and end the walk, and only the
address bits of an entry form the physical address.

Both are functions of a physical memory, given as the 64-bit word at each
address, of the address of the top table and of the virtual address.  The
fourth level is folded into the first, so `p4d_offset` returns the entry it is
given.  Reserved bits of an entry are not checked: they are removed with the
other flags.
-/

/-! ## Tables and entries -/

def pageMask : UInt64 := 0xFFFFFFFFFFFFF000

/-- Bits 12 to 51 of an entry. -/
def addressMask : UInt64 := 0x000FFFFFFFFFF000

/-- Bits 30 to 51, the address of a 1 GiB page. -/
def gigaMask : UInt64 := 0x000FFFFFC0000000

/-- Bits 21 to 51, the address of a 2 MiB page. -/
def megaMask : UInt64 := 0x000FFFFFFFE00000

/-- Bits 52 to 63, which hold flags in every entry. -/
def highMask : UInt64 := 0xFFF0000000000000

/-- The accessed and dirty bits, which some processors set in an empty entry. -/
def erratumMask : UInt64 := 0x60

def pgdIndex (vaddr : UInt64) : UInt64 := (vaddr >>> 39) &&& 511
def pudIndex (vaddr : UInt64) : UInt64 := (vaddr >>> 30) &&& 511
def pmdIndex (vaddr : UInt64) : UInt64 := (vaddr >>> 21) &&& 511
def pteIndex (vaddr : UInt64) : UInt64 := (vaddr >>> 12) &&& 511

/-- The address of one entry of a table. -/
def entryAddress (table index : UInt64) : UInt64 := table + 8 * index

/-- The table named by the address bits of an entry. -/
def tableOf (entry : UInt64) : UInt64 := entry &&& addressMask

/-- The common form of `pgd_none`, `p4d_none`, `pud_none`, `pmd_none` and `pte_none`. -/
def entryNone (entry : UInt64) : Prop := entry &&& ~~~erratumMask = 0

instance (entry : UInt64) : Decidable (entryNone entry) :=
  inferInstanceAs (Decidable (_ = _))

/-- Bit 0 of an entry. -/
def Present (entry : UInt64) : Prop := entry &&& 1 ≠ 0

instance (entry : UInt64) : Decidable (Present entry) :=
  inferInstanceAs (Decidable (¬ _ = _))

/-- Bit 7 of an entry of the second or third level. -/
def Large (entry : UInt64) : Prop := entry &&& 0x80 ≠ 0

instance (entry : UInt64) : Decidable (Large entry) :=
  inferInstanceAs (Decidable (¬ _ = _))

/-- Bits 47 to 63 of the address are all equal. -/
def Canonical (vaddr : UInt64) : Prop := vaddr >>> 47 = 0 \/ vaddr >>> 47 = 0x1FFFF

instance (vaddr : UInt64) : Decidable (Canonical vaddr) :=
  inferInstanceAs (Decidable (_ \/ _))

/-! ## The two walks -/

/-- The value of `return -1` as an `unsigned long`. -/
def notMapped : UInt64 := 0xFFFFFFFFFFFFFFFF

def vaddr2paddr (memory : UInt64 -> UInt64) (pgdBase vaddr : UInt64) : UInt64 :=
  let pgd := memory (entryAddress pgdBase (pgdIndex vaddr))
  if entryNone pgd then notMapped
  else
    let p4d := pgd
    if entryNone p4d then notMapped
    else
      let pud := memory (entryAddress (tableOf p4d) (pudIndex vaddr))
      if entryNone pud then notMapped
      else
        let pmd := memory (entryAddress (tableOf pud) (pmdIndex vaddr))
        if entryNone pmd then notMapped
        else
          let pte := memory (entryAddress (tableOf pmd) (pteIndex vaddr))
          if entryNone pte then notMapped
          else
            let pageAddr := pte &&& pageMask
            let pageOffset := vaddr &&& ~~~pageMask
            pageAddr ||| pageOffset

/-- The translation of the architecture: `none` is a page fault. -/
def translate (memory : UInt64 -> UInt64) (root vaddr : UInt64) : Option UInt64 :=
  let pml4e := memory (entryAddress root (pgdIndex vaddr))
  if ¬ Present pml4e then none
  else
    let pdpte := memory (entryAddress (tableOf pml4e) (pudIndex vaddr))
    if ¬ Present pdpte then none
    else if Large pdpte then some ((pdpte &&& gigaMask) ||| (vaddr &&& 0x3FFFFFFF))
    else
      let pde := memory (entryAddress (tableOf pdpte) (pmdIndex vaddr))
      if ¬ Present pde then none
      else if Large pde then some ((pde &&& megaMask) ||| (vaddr &&& 0x1FFFFF))
      else
        let pte := memory (entryAddress (tableOf pde) (pteIndex vaddr))
        if ¬ Present pte then none
        else some ((pte &&& addressMask) ||| (vaddr &&& 0xFFF))

/-- The software walk returns the translated address, or `-1` without one. -/
def AgreesWithHardware (memory : UInt64 -> UInt64) (root vaddr : UInt64) : Prop :=
  match translate memory root vaddr with
  | some paddr => vaddr2paddr memory root vaddr = paddr
  | none => vaddr2paddr memory root vaddr = notMapped

/-! ## The entries on the way of an address -/

/-- The words at the four places where the software walk looks when it does
not stop early. -/
structure WalkEntries where
  pgd : UInt64
  pud : UInt64
  pmd : UInt64
  pte : UInt64

/-- Follow the address bits of every entry, whatever its other bits say. -/
def walkEntries (memory : UInt64 -> UInt64) (root vaddr : UInt64) : WalkEntries :=
  let pgd := memory (entryAddress root (pgdIndex vaddr))
  let pud := memory (entryAddress (tableOf pgd) (pudIndex vaddr))
  let pmd := memory (entryAddress (tableOf pud) (pmdIndex vaddr))
  let pte := memory (entryAddress (tableOf pmd) (pteIndex vaddr))
  ⟨pgd, pud, pmd, pte⟩

namespace WalkEntries

/-- One of the four entries is empty. -/
def HasEmpty (entries : WalkEntries) : Prop :=
  entryNone entries.pgd \/ entryNone entries.pud \/ entryNone entries.pmd \/ entryNone entries.pte

instance (entries : WalkEntries) : Decidable entries.HasEmpty :=
  inferInstanceAs (Decidable (_ \/ _))

/-- How the architecture maps the address. -/
inductive Kind where
  | unmapped
  | page1G
  | page2M
  | page4K
deriving DecidableEq, Repr

def kind (entries : WalkEntries) : Kind :=
  if ¬ Present entries.pgd then .unmapped
  else if ¬ Present entries.pud then .unmapped
  else if Large entries.pud then .page1G
  else if ¬ Present entries.pmd then .unmapped
  else if Large entries.pmd then .page2M
  else if ¬ Present entries.pte then .unmapped
  else .page4K

/-- The physical address of a mapped address. -/
def frame (entries : WalkEntries) (vaddr : UInt64) : Option UInt64 :=
  match entries.kind with
  | .unmapped => none
  | .page1G => some ((entries.pud &&& gigaMask) ||| (vaddr &&& 0x3FFFFFFF))
  | .page2M => some ((entries.pmd &&& megaMask) ||| (vaddr &&& 0x1FFFFF))
  | .page4K => some ((entries.pte &&& addressMask) ||| (vaddr &&& 0xFFF))

/-- The condition on the entries.  A 4 KiB page needs its high flags clear,
and an unmapped address an empty entry.  The remaining cases are the
coincidences: the word read below a large page's entry, or below an entry that
is not present, happens to hold the frame number that is wanted. -/
def Exact (entries : WalkEntries) (vaddr : UInt64) : Prop :=
  match entries.kind with
  | .unmapped => entries.HasEmpty \/
      (entries.pte &&& pageMask = pageMask /\ vaddr &&& 0xFFF = 0xFFF)
  | .page1G => ¬ entries.HasEmpty /\
      entries.pte &&& pageMask = (entries.pud &&& gigaMask) ||| (vaddr &&& 0x3FFFF000)
  | .page2M => ¬ entries.HasEmpty /\
      entries.pte &&& pageMask = (entries.pmd &&& megaMask) ||| (vaddr &&& 0x1FF000)
  | .page4K => entries.pte &&& highMask = 0

end WalkEntries

theorem vaddr2paddr_walk (memory : UInt64 -> UInt64) (root vaddr : UInt64) :
    vaddr2paddr memory root vaddr =
      if (walkEntries memory root vaddr).HasEmpty then notMapped
      else ((walkEntries memory root vaddr).pte &&& pageMask) ||| (vaddr &&& ~~~pageMask) := by
  unfold vaddr2paddr WalkEntries.HasEmpty walkEntries
  simp only
  split_ifs <;> simp_all

theorem translate_walk (memory : UInt64 -> UInt64) (root vaddr : UInt64) :
    translate memory root vaddr = (walkEntries memory root vaddr).frame vaddr := by
  unfold translate WalkEntries.frame WalkEntries.kind walkEntries
  simp only
  split_ifs <;> rfl

/-- A present entry is not empty. -/
theorem not_none_of_present {entry : UInt64} (present : Present entry) : ¬ entryNone entry := by
  intro empty
  apply present
  have masks : (1 : UInt64) = ~~~erratumMask &&& 1 := by decide
  rw [masks, ← UInt64.and_assoc, empty, UInt64.zero_and]

/-- The address bits of a word are all its bits from 12 upwards exactly when
its high flags are clear. -/
theorem and_pageMask_eq_iff (word : UInt64) :
    word &&& pageMask = word &&& addressMask <-> word &&& highMask = 0 := by
  have masks : pageMask = addressMask ||| highMask := by decide
  have disjoint : addressMask &&& highMask = 0 := by decide
  have parts : word &&& pageMask = (word &&& addressMask) ||| (word &&& highMask) := by
    rw [masks, UInt64.and_comm, or_and_distrib, UInt64.and_comm, UInt64.and_comm highMask]
  rw [parts]
  constructor
  · intro same
    have masked := congrArg (· &&& highMask) same
    simp only [and_join, UInt64.and_assoc, disjoint, UInt64.and_self, UInt64.and_zero,
      UInt64.zero_or] at masked
    exact masked
  · intro clear
    rw [clear, UInt64.or_zero]

/-- The address that the software walk joins is the address of a page exactly
when the last word holds the page's address and the part of the offset that
lies above bit 11. -/
theorem joined_eq_iff (pte vaddr entry mask offsetMask : UInt64)
    (aligned : mask &&& ~~~pageMask = 0) (covers : offsetMask &&& ~~~pageMask = ~~~pageMask) :
    (pte &&& pageMask) ||| (vaddr &&& ~~~pageMask) = (entry &&& mask) ||| (vaddr &&& offsetMask) <->
      pte &&& pageMask = (entry &&& (mask &&& pageMask)) ||| (vaddr &&& (offsetMask &&& pageMask)) := by
  rw [join_eq_iff, and_join, and_join, aligned, covers, UInt64.and_zero, UInt64.zero_or,
    and_iff_left rfl]

/-- A translated address has no high bits, so it is never `-1`. -/
theorem frame_ne_notMapped (entry vaddr mask offsetMask : UInt64)
    (mask_low : mask &&& highMask = 0) (offset_low : offsetMask &&& highMask = 0) :
    notMapped ≠ (entry &&& mask) ||| (vaddr &&& offsetMask) := by
  intro same
  have masked := congrArg (· &&& highMask) same
  simp only [and_join, mask_low, offset_low, UInt64.and_zero, UInt64.or_zero] at masked
  exact absurd masked (by decide)

/-! ## When the walks agree -/

namespace WalkEntries

theorem not_hasEmpty_of_page4K {entries : WalkEntries} (small : entries.kind = .page4K) :
    ¬ entries.HasEmpty := by
  unfold kind at small
  split_ifs at small with pgd pud _ pmd _ pte
  rintro (empty | empty | empty | empty)
  · exact not_none_of_present pgd empty
  · exact not_none_of_present pud empty
  · exact not_none_of_present pmd empty
  · exact not_none_of_present pte empty

/-- A mapping whose frame is joined from an entry and the address is met by
the software walk exactly when no entry is empty and the last word holds the
frame. -/
theorem walk_eq_frame_iff (entries : WalkEntries) (vaddr entry mask offsetMask : UInt64)
    (aligned : mask &&& ~~~pageMask = 0) (covers : offsetMask &&& ~~~pageMask = ~~~pageMask)
    (mask_low : mask &&& highMask = 0) (offset_low : offsetMask &&& highMask = 0) :
    (if entries.HasEmpty then notMapped else (entries.pte &&& pageMask) ||| (vaddr &&& ~~~pageMask)) =
        (entry &&& mask) ||| (vaddr &&& offsetMask) <->
      ¬ entries.HasEmpty /\ entries.pte &&& pageMask =
        (entry &&& (mask &&& pageMask)) ||| (vaddr &&& (offsetMask &&& pageMask)) := by
  by_cases empty : entries.HasEmpty
  · rw [if_pos empty]
    exact ⟨fun same => absurd same (frame_ne_notMapped entry vaddr mask offsetMask mask_low offset_low),
      fun exact_ => absurd empty exact_.1⟩
  · rw [if_neg empty, joined_eq_iff entries.pte vaddr entry mask offsetMask aligned covers, and_iff_right empty]

end WalkEntries

/-- For every page table and every address, the software walk gives what the
architecture gives exactly when the entries on the way meet the condition. -/
theorem agreesWithHardware_iff (memory : UInt64 -> UInt64) (root vaddr : UInt64) :
    AgreesWithHardware memory root vaddr <-> (walkEntries memory root vaddr).Exact vaddr := by
  unfold AgreesWithHardware
  rw [translate_walk, vaddr2paddr_walk]
  generalize walkEntries memory root vaddr = entries
  unfold WalkEntries.frame WalkEntries.Exact
  cases kind : entries.kind with
  | unmapped =>
      simp only
      by_cases empty : entries.HasEmpty
      · rw [if_pos empty]
        exact ⟨fun _ => Or.inl empty, fun _ => rfl⟩
      · have low : notMapped &&& ~~~pageMask = 0xFFF := by decide
        have high : notMapped &&& pageMask = pageMask := by decide
        have offset : ~~~pageMask = 0xFFF := by decide
        rw [if_neg empty, or_iff_right empty, join_eq_iff, low, high, offset]
  | page1G =>
      exact entries.walk_eq_frame_iff vaddr entries.pud gigaMask 0x3FFFFFFF
        (by decide) (by decide) (by decide) (by decide)
  | page2M =>
      exact entries.walk_eq_frame_iff vaddr entries.pmd megaMask 0x1FFFFF
        (by decide) (by decide) (by decide) (by decide)
  | page4K =>
      simp only
      rw [entries.walk_eq_frame_iff vaddr entries.pte addressMask 0xFFF
        (by decide) (by decide) (by decide) (by decide),
        and_iff_right (WalkEntries.not_hasEmpty_of_page4K kind)]
      have mask : addressMask &&& pageMask = addressMask := by decide
      have offset : (0xFFF : UInt64) &&& pageMask = 0 := by decide
      rw [mask, offset, UInt64.and_zero, UInt64.or_zero, and_pageMask_eq_iff]

/-- The tables of the module's own log, in which the last entry forbids
execution with its bit 63. -/
def loggedMemory (address : UInt64) : UInt64 :=
  if address = 0x11FB20930 then 0x6602067
  else if address = 0x66024E8 then 0x6606067
  else if address = 0x66067E0 then 0x11FBB2063
  else if address = 0x11FBB2E70 then 0x800000011F9CE063
  else 0

/-- On the page of the log the walk returns `0x800000011f9ce000`, while the
page lies at `0x11f9ce000`. -/
theorem logged_page_differs :
    Canonical 0xFFFF93275F9CE000 /\
      vaddr2paddr loggedMemory 0x11FB20000 0xFFFF93275F9CE000 = 0x800000011F9CE000 /\
      translate loggedMemory 0x11FB20000 0xFFFF93275F9CE000 = some 0x11F9CE000 /\
      ¬ forall (memory : UInt64 -> UInt64) (root vaddr : UInt64), Canonical vaddr ->
        AgreesWithHardware memory root vaddr := by
  have software : vaddr2paddr loggedMemory 0x11FB20000 0xFFFF93275F9CE000 = 0x800000011F9CE000 := by
    decide
  have hardware : translate loggedMemory 0x11FB20000 0xFFFF93275F9CE000 = some 0x11F9CE000 := by
    decide
  refine ⟨by decide, software, hardware, ?_⟩
  intro always
  have agrees := always loggedMemory 0x11FB20000 0xFFFF93275F9CE000 (by decide)
  unfold AgreesWithHardware at agrees
  rw [hardware, software] at agrees
  exact absurd agrees (by decide)

end AddressSpace
end KernelStudy
