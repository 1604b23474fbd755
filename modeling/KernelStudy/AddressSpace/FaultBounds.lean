import KernelStudy.AddressSpace.Memmap

namespace KernelStudy
namespace AddressSpace

open LabelledRun

/-!
# The bound of the fault handler

A mapping is checked twice.  `my_memmap_map` bounds its size when it is made,
and the fault handler bounds the distance of each fault, because the core
kernel may have enlarged the mapping in between.  The second test lets the
distance `MAP_LEN` itself pass, where the area has no page any more, and
`get_page` is called without a page.  Only an enlarged mapping contains such an
address.
-/

/-- What a fault may do: it succeeds only inside the area, with one of the
`PAGE_CNT` pages, and everywhere else it ends with a signal and takes no reference. -/
structure Contained (area : UInt64) (vma : Vma) (address : Nat) : Prop where
  success : forall page logged,
    (myMemmapVmaOpsFault area vma address (vma.pgoff address)).outcome = .resolved page logged ->
    address - vma.vmStart < mapLen.toNat /\
      Exists fun number => page = some number /\ number < pageCnt
  refused : (forall page logged,
    (myMemmapVmaOpsFault area vma address (vma.pgoff address)).outcome ≠ .resolved page logged) ->
    myMemmapVmaOpsFault area vma address (vma.pgoff address) = ⟨.sigbus, []⟩
  beyond : mapLen.toNat ≤ address - vma.vmStart ->
    myMemmapVmaOpsFault area vma address (vma.pgoff address) = ⟨.sigbus, []⟩

/-- Every fault of the event is contained. -/
def FaultContained (area : UInt64) (mapping : Mapping) : Event -> Prop
  | .fault index address => forall vma, mapping.vmas[index]? = some vma -> Contained area vma address
  | .split _ _ | .unmap _ | .protect _ _ | .move _ _ | .grow _ _ => True

/-- The event is not a fault at the distance `MAP_LEN`, unless there is no
area at all. -/
def ClearOfEnd (area : UInt64) (mapping : Mapping) : Event -> Prop
  | .fault index address => forall vma, mapping.vmas[index]? = some vma ->
      area = 0 \/ address - vma.vmStart ≠ mapLen.toNat
  | .split _ _ | .unmap _ | .protect _ _ | .move _ _ | .grow _ _ => True

/-! ## One fault -/

section Fault

variable {area : UInt64} {vma : Vma} {address : Nat}

theorem fault_sigbus_of_null (pgoff : Nat) (null : area = 0) :
    myMemmapVmaOpsFault area vma address pgoff = ⟨.sigbus, []⟩ := by
  unfold myMemmapVmaOpsFault
  rw [if_pos null]

theorem fault_sigbus_of_beyond (pgoff : Nat) (inside : vma.Contains address)
    (beyond : mapLen.toNat < address - vma.vmStart) :
    myMemmapVmaOpsFault area vma address pgoff = ⟨.sigbus, []⟩ := by
  have distance := toNat_distance inside
  have tooFar : UInt64.ofNat address - UInt64.ofNat vma.vmStart > mapLen := by
    rw [gt_iff_lt, UInt64.lt_iff_toNat_lt]
    omega
  unfold myMemmapVmaOpsFault
  simp only [if_pos tooFar, ite_self]

/-- Up to the distance `MAP_LEN`, that distance included, the handler asks for
the page of the distance. -/
theorem fault_of_le (allocated : area ≠ 0) (pgoff : Nat) (inside : vma.Contains address)
    (near : address - vma.vmStart ≤ mapLen.toNat) :
    Exists fun logged => myMemmapVmaOpsFault area vma address pgoff =
      match vmallocToPage area (area + UInt64.ofNat (address - vma.vmStart)) with
      | none => ⟨.oops, []⟩
      | some page => ⟨.resolved (some page) logged, [page]⟩ := by
  have distance := toNat_distance inside
  have notBeyond : ¬ UInt64.ofNat address - UInt64.ofNat vma.vmStart > mapLen := by
    rw [gt_iff_lt, UInt64.lt_iff_toNat_lt]
    omega
  have word : UInt64.ofNat address - UInt64.ofNat vma.vmStart =
      UInt64.ofNat (address - vma.vmStart) := by
    rw [← distance, UInt64.ofNat_toNat]
  refine ⟨vmallocToPage area (area + (UInt64.ofNat pgoff <<< 12)), ?_⟩
  unfold myMemmapVmaOpsFault
  simp only [if_neg allocated, if_neg notBeyond]
  rw [word]
  cases vmallocToPage area (area + UInt64.ofNat (address - vma.vmStart)) with
  | none => rfl
  | some page => rfl

/-- Behind the area there is no page, and the handler takes a reference all the same. -/
theorem fault_oops (allocated : area ≠ 0) (pgoff : Nat) (inside : vma.Contains address)
    (atEnd : address - vma.vmStart = mapLen.toNat) :
    myMemmapVmaOpsFault area vma address pgoff = ⟨.oops, []⟩ := by
  have behind : vmallocToPage area (area + UInt64.ofNat (address - vma.vmStart)) = none := by
    rw [atEnd, UInt64.ofNat_toNat, vmallocToPage, UInt64.add_comm, UInt64.add_sub_cancel]
    exact if_neg (Nat.lt_irrefl _)
  rcases fault_of_le allocated pgoff inside (Nat.le_of_eq atEnd) with ⟨logged, outcome⟩
  rw [outcome, behind]

theorem contained_of_sigbus
    (signal : myMemmapVmaOpsFault area vma address (vma.pgoff address) = ⟨.sigbus, []⟩) :
    Contained area vma address := by
  refine ⟨fun page logged resolved => ?_, fun _ => signal, fun _ => signal⟩
  rw [signal] at resolved
  cases resolved

theorem contained_of_lt (allocated : area ≠ 0) (inside : vma.Contains address)
    (near : address - vma.vmStart < mapLen.toNat) : Contained area vma address := by
  have length : mapLen.toNat = 4096000 := rfl
  have count : pageCnt = 1000 := rfl
  have exactDistance : (UInt64.ofNat (address - vma.vmStart)).toNat = address - vma.vmStart :=
    UInt64.toNat_ofNat_of_lt' (by simp only [UInt64.size]; omega)
  rcases fault_of_le allocated (vma.pgoff address) inside (Nat.le_of_lt near) with ⟨logged, outcome⟩
  rw [vmallocToPage_add area (by omega), exactDistance] at outcome
  refine ⟨fun page other resolved => ?_, fun refused => ?_, fun beyond => absurd near (Nat.not_lt.mpr beyond)⟩
  · rw [outcome] at resolved
    cases resolved
    exact ⟨near, _, rfl, by omega⟩
  · rw [outcome] at refused
    exact absurd rfl (refused _ _)

/-- A fault is contained iff it is not at the distance `MAP_LEN`. -/
theorem contained_iff (inside : vma.Contains address) :
    Contained area vma address <-> area = 0 \/ address - vma.vmStart ≠ mapLen.toNat := by
  constructor
  · intro contained
    by_cases null : area = 0
    · exact Or.inl null
    · refine Or.inr fun atEnd => ?_
      have signal := contained.beyond (Nat.le_of_eq atEnd.symm)
      rw [fault_oops null _ inside atEnd] at signal
      cases signal
  · intro clear
    by_cases null : area = 0
    · exact contained_of_sigbus (fault_sigbus_of_null _ null)
    · have notEnd := clear.resolve_left null
      rcases Nat.lt_or_gt_of_ne notEnd with near | beyond
      · exact contained_of_lt null inside near
      · exact contained_of_sigbus (fault_sigbus_of_beyond _ inside beyond)

end Fault

/-! ## Whole runs -/

/-- An event that happens is contained iff it is clear of the end. -/
theorem faultContained_iff {area : UInt64} {mapping next : Mapping} {event : Event}
    (taken : mappingStep area mapping event = some next) :
    FaultContained area mapping event <-> ClearOfEnd area mapping event := by
  cases event with
  | fault index address =>
      simp only [mappingStep, Option.bind_eq_some_iff, Option.ite_none_right_eq_some] at taken
      rcases taken with ⟨vma, found, inside, _⟩
      constructor
      · intro contained other foundOther
        have same : vma = other := Option.some.inj (found.symm.trans foundOther)
        subst other
        exact (contained_iff inside).mp (contained vma found)
      · intro clear other foundOther
        have same : vma = other := Option.some.inj (found.symm.trans foundOther)
        subst other
        exact (contained_iff inside).mpr (clear vma found)
  | split | unmap | protect | move | grow => exact Iff.rfl

/-- The mapping is not enlarged. -/
def NotGrown (_mapping : Mapping) : Event -> Prop
  | .grow _ _ => False
  | .split _ _ | .unmap _ | .protect _ _ | .move _ _ | .fault _ _ => True

/-- No part of the mapping is longer than the area. -/
def Short (mapping : Mapping) : Prop :=
  forall vma, vma ∈ mapping.vmas -> vma.vmEnd - vma.vmStart ≤ mapLen.toNat

theorem Short.replace {mapping : Mapping} (short : Short mapping) (index : Nat) {vmas : List Vma}
    (parts : forall vma, vma ∈ vmas -> vma.vmEnd - vma.vmStart ≤ mapLen.toNat) :
    Short (mapping.replace index vmas) := by
  intro vma member
  rcases List.mem_append.mp member with kept | added
  · exact short vma (List.mem_of_mem_eraseIdx kept)
  · exact parts vma added

/-- Apart from growing, every operation keeps the parts short. -/
theorem Short.step {area : UInt64} (mapping : Mapping) (event : Event) (next : Mapping)
    (short : Short mapping) (notGrown : NotGrown mapping event)
    (taken : mappingStep area mapping event = some next) : Short next := by
  cases event with
  | grow index pages => exact notGrown.elim
  | unmap index =>
      simp only [mappingStep, Option.map_eq_some_iff] at taken
      rcases taken with ⟨vma, found, same⟩
      exact same ▸ short.replace index (List.forall_mem_nil _)
  | protect index flags =>
      simp only [mappingStep, Option.map_eq_some_iff] at taken
      rcases taken with ⟨vma, found, same⟩
      have bound := short vma (List.mem_of_getElem? found)
      exact same ▸ short.replace index (List.forall_mem_singleton.mpr bound)
  | move index newStart =>
      simp only [mappingStep, Option.bind_eq_some_iff, Option.dite_none_right_eq_some,
        Option.some.injEq] at taken
      rcases taken with ⟨vma, found, fits, same⟩
      have bound := short vma (List.mem_of_getElem? found)
      refine same ▸ short.replace index (List.forall_mem_singleton.mpr ?_)
      simp only [Vma.moved]
      omega
  | split index pages =>
      simp only [mappingStep, Option.bind_eq_some_iff, Option.dite_none_right_eq_some,
        Option.some.injEq] at taken
      rcases taken with ⟨vma, found, cuts, same⟩
      have bound := short vma (List.mem_of_getElem? found)
      have inside := cuts.2
      refine same ▸ short.replace index
        (List.forall_mem_cons.mpr ⟨?_, List.forall_mem_singleton.mpr ?_⟩)
      · simp only [Vma.front]
        omega
      · simp only [Vma.back]
        omega
  | fault index address =>
      simp only [mappingStep, Option.bind_eq_some_iff, Option.ite_none_right_eq_some,
        Option.some.injEq] at taken
      rcases taken with ⟨vma, found, inside, same⟩
      exact same ▸ short

theorem Short.clear {area : UInt64} (mapping : Mapping) (event : Event) (next : Mapping)
    (short : Short mapping) (_notGrown : NotGrown mapping event)
    (taken : mappingStep area mapping event = some next) : ClearOfEnd area mapping event := by
  cases event with
  | fault index address =>
      simp only [mappingStep, Option.bind_eq_some_iff, Option.ite_none_right_eq_some] at taken
      rcases taken with ⟨vma, found, inside, _⟩
      intro other foundOther
      have same : vma = other := Option.some.inj (found.symm.trans foundOther)
      subst other
      have bound := short vma (List.mem_of_getElem? found)
      have above := inside.1
      have below := inside.2
      exact Or.inr (by omega)
  | split | unmap | protect | move | grow => trivial

/-- In every sequence of reshaping operations and faults on an accepted
mapping, all faults are contained iff none is at the distance `MAP_LEN`.  A
sequence that never enlarges the mapping has no such fault. -/
theorem faults_contained_iff (area : UInt64) (vma : Vma) (accepted : (myMemmapMap vma).1 = 0)
    (events : List Event) :
    (RunMeets (mappingStep area) (FaultContained area) (Mapping.fresh vma) events <->
      RunMeets (mappingStep area) (ClearOfEnd area) (Mapping.fresh vma) events) /\
    (RunMeets (mappingStep area) NotGrown (Mapping.fresh vma) events ->
      RunMeets (mappingStep area) (FaultContained area) (Mapping.fresh vma) events) := by
  have short : Short (Mapping.fresh vma) :=
    List.forall_mem_singleton.mpr (accepted_mapping accepted).2.2
  have contained : RunMeets (mappingStep area) (FaultContained area) (Mapping.fresh vma) events <->
      RunMeets (mappingStep area) (ClearOfEnd area) (Mapping.fresh vma) events :=
    runMeets_congr (mappingStep area) (fun _ _ _ _ _ _ => trivial)
      (fun mapping event next _ taken => faultContained_iff taken) events trivial
  refine ⟨contained, fun notGrown => contained.mpr ?_⟩
  exact runMeets_of_meets (mappingStep area) Short.step Short.clear short notGrown

/-- A readable mapping of the whole area. -/
def wholeArea : Vma :=
  ⟨0x7E0000000000, 0x7E00003E8000, 0, 0x1, false, by decide, by decide, by decide, by decide,
    by decide⟩

/-- The last page of the whole area can be touched. -/
theorem faults_contained_wholeArea :
    (myMemmapMap wholeArea).1 = 0 /\
      RunMeets (mappingStep 0xFFFFC90000000000) (FaultContained 0xFFFFC90000000000)
        (Mapping.fresh wholeArea) [.fault 0 0x7E00003E7000] := by
  refine ⟨by decide, (faults_contained_iff _ wholeArea (by decide) _).1.mpr ?_⟩
  intro next taken
  refine ⟨fun vma found => Or.inr ?_, trivial⟩
  have same := Option.some.inj found
  subst vma
  decide

theorem wholeArea_grows : (myMemmapMap wholeArea).2.GrowsBy 1 := by decide

/-- The whole area is mapped and then enlarged by one page.  A fault in the
new page is not refused: it takes a reference to a page that does not exist. -/
theorem fault_after_grow_resolved :
    ¬ forall (area : UInt64) (vma : Vma), area ≠ 0 -> (myMemmapMap vma).1 = 0 -> forall events,
      RunMeets (mappingStep area) (FaultContained area) (Mapping.fresh vma) events := by
  intro always
  have grown : mappingStep 0xFFFFC90000000000 (Mapping.fresh wholeArea) (.grow 0 1) =
      some ⟨[(myMemmapMap wholeArea).2.grown 1 wholeArea_grows], []⟩ := by
    simp only [mappingStep, Mapping.fresh, List.getElem?_cons_zero, Option.bind_some,
      dif_pos wholeArea_grows]
    rfl
  have inside : ((myMemmapMap wholeArea).2.grown 1 wholeArea_grows).Contains 0x7E00003E8000 := by
    decide
  have meets := always 0xFFFFC90000000000 wholeArea (by decide) (by decide)
    [.grow 0 1, .fault 0 0x7E00003E8000]
  have contained := ((meets _ grown).2 _ (by
    simp only [mappingStep, List.getElem?_cons_zero, Option.bind_some, if_pos inside]
    rfl)).1 _ rfl
  have clear := (contained_iff inside).mp contained
  exact absurd clear (by decide)

end AddressSpace
end KernelStudy
