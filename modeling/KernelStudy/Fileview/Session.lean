import KernelStudy.Fileview.Window
import KernelStudy.Fileview.HexViews

namespace KernelStudy
namespace Fileview

open CellMemory

/-!
# Whole sessions of `fileview`

A session opens a file, asks for its size and then repeats the main loop: it
shows a window, waits for a key and obeys it.  The file descriptor and the
display buffer live on from one iteration to the next, so what a window shows
could depend on everything that happened before it.

`Browsable` collects what the program relies on: wherever the navigation can
go, a seek followed by the fill loop gives bytes that depend on the position
only.  For every such file a session is the navigation of `Navigation`, with
one screen for each view.  Neither the buffer nor the descriptor matters.
-/

/-! ## The program -/

/-- The two calls that the program makes on its open file.  `lseek64` gives
the descriptor after it and the returned position. -/
structure Descriptor (Device : Type) where
  lseek64 : Device -> Int64 -> Int32 -> Device × Int64
  read : Device -> UInt64 -> ReadResult Device

/-- The variables that survive an iteration, and the screens shown so far. -/
structure Session (Device : Type) where
  device : Device
  buffer : Nat -> UInt8
  view : View
  screens : List (List ScreenLine)

variable {Device : Type}

/-- An iteration up to the key press. -/
def display (file : Descriptor Device) (session : Session Device) : Option (Session Device) :=
  let view := session.view.loopTop
  let sought := file.lseek64 session.device view.position 0
  (fillLoop file.read bufsize sought.1 (eraseBuffer session.buffer)).map fun filled =>
    { device := filled.device
      buffer := filled.buffer
      view := view
      screens := session.screens ++ [(renderLoop view.format sought.2 filled.buffer).lines] }

/-- The rest of an iteration, and the next one up to its key press. -/
def pressKey (file : Descriptor Device) (posmax : Int64) (session : Session Device) (key : Keypress) :
    Option (Session Device) :=
  (loopBody posmax session.view key).bind fun view =>
    if view.done then some { session with view := view }
    else display file { session with view := view }

/-- The program from the opened file to the first key press, with the bound
that it computes.  Without a size it exits. -/
def openSession (file : Descriptor Device) (device : Device) : Option (Int64 × Session Device) :=
  let sought := file.lseek64 device 0 2
  if sought.2 < 0 then none
  else (display file ⟨sought.1, fun _ => 0, View.start, []⟩).map fun session =>
    (posmaxOf sought.2, session)

/-! ## What a session is for -/

/-- The navigation with the screens that belong to it. -/
structure Browsing where
  view : View
  screens : List (List ScreenLine)

/-- The screen of a view, from the bytes shown at each distance from its position. -/
def screenOf (shown : Nat -> Nat -> UInt8) (view : View) : List ScreenLine :=
  (List.range 16).map fun i =>
    ⟨6 + i, 2, outline view.format (view.position.toInt.toNat + 16 * i) (fun j =>
      shown view.position.toInt.toNat (16 * i + j))⟩

def browse (shown : Nat -> Nat -> UInt8) (posmax : Int64) (browsing : Browsing) (key : Keypress) :
    Option Browsing :=
  (iteration posmax browsing.view key).map fun view =>
    ⟨view, if view.done then browsing.screens else browsing.screens ++ [screenOf shown view]⟩

/-- The first screen. -/
def Browsing.begin (shown : Nat -> Nat -> UInt8) : Browsing :=
  ⟨View.start.loopTop, [screenOf shown View.start.loopTop]⟩

def Session.browsing (session : Session Device) : Browsing :=
  ⟨session.view, session.screens⟩

/-! ## What an iteration leaves alone -/

theorem View.loopTop_eq {view : View} (member : view.pageincr ∈ pageIncrements) :
    view.loopTop = view := by
  rw [View.loopTop, restorePageincr_eq member]

/-- Only the quit key ends the loop, and it changes nothing else. -/
theorem loopBody_done {posmax : Int64} {view bottom : View} {key : Keypress}
    (onPage : OnPage posmax view) (body : loopBody posmax view key = some bottom)
    (finished : bottom.done = true) : bottom.loopTop = bottom := by
  rcases loopBody_cases body with ⟨running, address, same⟩
  apply View.loopTop_eq
  subst bottom
  revert finished
  cases key.command with
  | quit => exact fun _ => onPage.increment
  | home | last | lineDown | lineUp | pageDown | pageUp | smallerPage | largerPage | display | seek
  | unknown =>
      intro finished
      exact absurd (running.symm.trans finished) (by decide)

/-! ## Files that can be browsed -/

/-- A file whose windows depend on the position only.  `Usable` is what holds
of the descriptor between two iterations. -/
structure Browsable (Device : Type) extends Descriptor Device where
  Usable : Device -> Prop
  filesize : Int64
  shown : Nat -> Nat -> UInt8
  filesize_nonneg : 0 ≤ filesize.toInt
  seek_end : forall device, Usable device ->
    (lseek64 device 0 2).2 = filesize /\ Usable (lseek64 device 0 2).1
  window : forall device position, Usable device -> 16 ∣ position.toInt -> 0 ≤ position.toInt ->
    position.toInt ≤ (posmaxOf filesize).toInt -> forall buffer,
    (lseek64 device position 0).2 = position /\ Exists fun filled =>
      fillLoop read bufsize (lseek64 device position 0).1 buffer = some filled /\
        Usable filled.device /\
        ((forall k, k < bufsize -> buffer k = 0xFF) -> forall k, k < bufsize ->
          filled.buffer k = shown position.toInt.toNat k)

namespace Browsable

variable (file : Browsable Device)

/-- The bound of the navigation in this file. -/
def posmax : Int64 := posmaxOf file.filesize

theorem posmax_bound : Bound file.posmax :=
  posmaxOf_bound file.filesize_nonneg

theorem posmax_room : file.posmax.toInt + 240 < 2 ^ 63 := by
  have value := toInt_posmaxOf file.filesize_nonneg
  have limit := file.filesize.toInt_lt
  have same : file.posmax = posmaxOf file.filesize := rfl
  rw [same, value]
  omega

variable {file}

/-- A window shows the bytes of its position. -/
theorem display_eq {session : Session Device} (usable : file.Usable session.device)
    (onPage : OnPage file.posmax session.view) :
    Exists fun next => display file.toDescriptor session = some next /\
      file.Usable next.device /\ next.view = session.view /\
      next.screens = session.screens ++ [screenOf file.shown session.view] := by
  rcases file.window session.device session.view.position usable onPage.aligned onPage.nonneg
    onPage.le_posmax (eraseBuffer session.buffer) with ⟨sought, filled, returned, kept, bytes⟩
  have agree := bytes fun k inside => eraseBuffer_prefix session.buffer bufsize inside
  have room : session.view.position.toInt + 240 < 2 ^ 63 := by
    have limit := file.posmax_room
    have upper := onPage.le_posmax
    omega
  have lines : (renderLoop session.view.format session.view.position filled.buffer).lines =
      screenOf file.shown session.view := by
    rw [renderLoop_lines session.view.format onPage.nonneg room, screenOf]
    apply List.map_congr_left
    intro i member
    have row := List.mem_range.mp member
    have same : forall j, j < 16 -> bufferRow filled.buffer i j =
        file.shown session.view.position.toInt.toNat (16 * i + j) := by
      intro j column
      have index : i * bufwide + j = 16 * i + j := by
        rw [show bufwide = 16 from rfl, Nat.mul_comm]
      rw [bufferRow, index]
      exact agree (16 * i + j) (by rw [show bufsize = 256 from rfl]; omega)
    rw [outline_congr session.view.format _ same]
  refine ⟨⟨filled.device, filled.buffer, session.view,
    session.screens ++ [screenOf file.shown session.view]⟩, ?_, kept, rfl, rfl⟩
  simp only [display, View.loopTop_eq onPage.increment, sought, returned, Option.map_some, lines]

/-- What holds of a session that waits for a key or has ended. -/
structure Waiting (file : Browsable Device) (session : Session Device) : Prop where
  usable : file.Usable session.device
  onPage : OnPage file.posmax session.view

/-- A key does in the program what it does in the navigation. -/
theorem pressKey_browse {session : Session Device} (waiting : Waiting file session) (key : Keypress) :
    (pressKey file.toDescriptor file.posmax session key).map Session.browsing =
        browse file.shown file.posmax session.browsing key /\
      forall next, pressKey file.toDescriptor file.posmax session key = some next ->
        Waiting file next := by
  cases body : loopBody file.posmax session.view key with
  | none =>
      simp only [pressKey, browse, iteration, Session.browsing, body, Option.bind_none,
        Option.map_none, reduceCtorEq, false_implies, implies_true, and_self]
  | some bottom =>
      have taken : iteration file.posmax session.view key = some bottom.loopTop := by
        rw [iteration, body, Option.map_some]
      have onPage := iteration_onPage file.posmax_bound session.view key _ waiting.onPage taken
      simp only [pressKey, browse, Session.browsing, body, taken, Option.bind_some, Option.map_some]
      cases finished : bottom.done with
      | true =>
          have kept := loopBody_done waiting.onPage body finished
          rw [kept] at onPage ⊢
          simp only [finished, if_true, Option.map_some, Option.some.injEq]
          refine ⟨rfl, fun next same => ?_⟩
          subst next
          exact ⟨waiting.usable, onPage⟩
      | false =>
          have top : display file.toDescriptor { session with view := bottom } =
              display file.toDescriptor { session with view := bottom.loopTop } := by
            simp only [display, View.loopTop_eq onPage.increment]
          have running : bottom.loopTop.done = false := finished
          have before : file.Usable ({ session with view := bottom.loopTop } : Session Device).device :=
            waiting.usable
          rcases display_eq before onPage with ⟨next, shows, usable, view, screens⟩
          simp only [running, top, shows, Bool.false_eq_true, if_false, Option.map_some,
            Option.some.injEq]
          refine ⟨by rw [Session.browsing, view, screens], fun other same => ?_⟩
          subst other
          exact ⟨usable, by rw [view]; exact onPage⟩

/-- The program opens the file and shows its first window. -/
theorem openSession_begin {device : Device} (usable : file.Usable device) :
    Exists fun session => openSession file.toDescriptor device = some (file.posmax, session) /\
      Waiting file session /\ session.browsing = Browsing.begin file.shown := by
  rcases file.seek_end device usable with ⟨size, kept⟩
  have located : ¬ file.filesize < 0 := by
    rw [Int64.lt_iff_toInt_lt, Int64.toInt_zero]
    exact Int.not_lt.mpr file.filesize_nonneg
  have onPage := start_onPage file.posmax_bound
  have before : file.Usable
      (⟨(file.lseek64 device 0 2).1, fun _ => 0, View.start.loopTop, []⟩ : Session Device).device := kept
  rcases display_eq before onPage with ⟨session, shows, stillUsable, view, screens⟩
  have top : display file.toDescriptor ⟨(file.lseek64 device 0 2).1, fun _ => 0, View.start, []⟩ =
      some session := by
    rw [← shows]
    simp only [display, View.loopTop_eq onPage.increment]
  refine ⟨session, ?_, ⟨stillUsable, by rw [view]; exact onPage⟩, ?_⟩
  · simp only [openSession, size, if_neg located, top, Option.map_some, posmax]
  · rw [Session.browsing, view, screens]
    rfl

/-- A session refines the navigation with its screens. -/
theorem run_browse {session : Session Device} (waiting : Waiting file session) (keys : List Keypress) :
    (LabelledRun.run (pressKey file.toDescriptor file.posmax) session keys).map Session.browsing =
      LabelledRun.run (browse file.shown file.posmax) session.browsing keys :=
  LabelledRun.run_map _ _ Session.browsing (Waiting file)
    (fun _ key waiting => (pressKey_browse waiting key).1)
    (fun _ key next waiting => (pressKey_browse waiting key).2 next) waiting keys

end Browsable

/-! ## The screens of a session -/

section Screens

variable {shown : Nat -> Nat -> UInt8} {posmax : Int64}

/-- The views that are shown after the keys, from a view that has been shown. -/
def shownViews (posmax : Int64) (view : View) : List Keypress -> List View
  | [] => []
  | key :: keys =>
      match iteration posmax view key with
      | none => []
      | some next => (if next.done then [] else [next]) ++ shownViews posmax next keys

/-- The screens of a session are those of the views it goes through, in order. -/
theorem browse_screens {browsing last : Browsing} {keys : List Keypress}
    (reached : LabelledRun.run (browse shown posmax) browsing keys = some last) :
    last.screens = browsing.screens ++ (shownViews posmax browsing.view keys).map (screenOf shown) := by
  induction keys generalizing browsing with
  | nil =>
      cases reached
      exact (List.append_nil _).symm
  | cons key keys inductionHypothesis =>
      rcases (LabelledRun.run_cons _).mp reached with ⟨middle, taken, rest⟩
      rw [browse, Option.map_eq_some_iff] at taken
      rcases taken with ⟨view, moved, same⟩
      subst middle
      rw [inductionHypothesis rest, shownViews, moved]
      cases finished : view.done with
      | true => simp only [finished, if_true, List.nil_append]
      | false =>
          simp only [finished, Bool.false_eq_true, if_false, List.map_append, List.map_cons, List.map_nil,
            List.append_assoc]

theorem shownViews_onPage (bound : Bound posmax) {view : View} (onPage : OnPage posmax view)
    (keys : List Keypress) {other : View} (member : other ∈ shownViews posmax view keys) :
    OnPage posmax other := by
  induction keys generalizing view with
  | nil => cases member
  | cons key keys inductionHypothesis =>
      rw [shownViews] at member
      cases moved : iteration posmax view key with
      | none =>
          rw [moved] at member
          cases member
      | some next =>
          rw [moved] at member
          have stillOnPage := iteration_onPage bound view key next onPage moved
          rcases List.mem_append.mp member with now | later
          · split at now
            · cases now
            · rw [List.mem_singleton.mp now]
              exact stillOnPage
          · exact inductionHypothesis stillOnPage later

/-- The last screen belongs to the current view. -/
structure Current (shown : Nat -> Nat -> UInt8) (browsing : Browsing) : Prop where
  last : browsing.view.done = false -> browsing.screens.getLast? = some (screenOf shown browsing.view)

theorem browse_current (browsing : Browsing) (key : Keypress) (next : Browsing)
    (_current : Current shown browsing) (taken : browse shown posmax browsing key = some next) :
    Current shown next := by
  rw [browse, Option.map_eq_some_iff] at taken
  rcases taken with ⟨view, _moved, same⟩
  subst next
  constructor
  intro running
  have now : view.done = false := running
  simp only [now, Bool.false_eq_true, if_false]
  exact List.getLast?_concat

/-- The navigation does not notice the screens. -/
theorem run_view (shown : Nat -> Nat -> UInt8) (posmax : Int64) (browsing : Browsing)
    (keys : List Keypress) :
    (LabelledRun.run (browse shown posmax) browsing keys).map Browsing.view =
      LabelledRun.run (iteration posmax) browsing.view keys := by
  apply LabelledRun.run_map _ _ Browsing.view (fun _ => True) _ (fun _ _ _ _ _ => trivial) trivial
  intro state key _
  rw [browse, Option.map_map]
  exact Option.map_id'

end Screens

/-! ## Reading a screen -/

/-- The address at the start of a line. -/
def lineAddress (line : ScreenLine) : Nat :=
  readHex (line.text.take 13)

/-- The bytes that a line shows in a format. -/
def lineBytes (format : Int32) (line : ScreenLine) : List UInt8 :=
  decodeView (elementWidth format) ((line.text.drop 14).take 48)

/-- A line gives back its address and its bytes. -/
theorem outline_reads {format : Int32} (listed : format ∈ formats) {address : Nat}
    (short : address < 16 ^ 13) (row : Nat -> UInt8) (screenRow col : Nat) :
    lineAddress ⟨screenRow, col, outline format address row⟩ = address /\
      lineBytes format ⟨screenRow, col, outline format address row⟩ = load row 0 16 := by
  have digits := length_formatHex (by decide : 1 ≤ 13) short
  have label : (formatHex 13 address ++ [' ']).length = 14 := by
    rw [List.length_append, digits]
    rfl
  have middle := length_hexPart listed row
  constructor
  · rw [lineAddress, outline, List.append_assoc, List.append_assoc, List.take_left' digits,
      readHex_formatHex]
  · rw [lineBytes, outline, List.append_assoc _ (hexPart format row), List.drop_left' label,
      List.take_left' middle, decodeView_hexPart listed]

/-- A screen whose sixteen lines give back consecutive addresses from the position of
the view on and, in its format, the bytes of `content` at these addresses. -/
def Shows (content : Nat -> UInt8) (view : View) (screen : List ScreenLine) : Prop :=
  screen.length = 16 /\ forall i, i < 16 -> Exists fun line => screen[i]? = some line /\
    lineAddress line = view.position.toInt.toNat + 16 * i /\
    lineBytes view.format line = load content (view.position.toInt.toNat + 16 * i) 16

theorem screenOf_shows {shown : Nat -> Nat -> UInt8} {posmax : Int64} {view : View}
    (onPage : OnPage posmax view) (short : posmax.toInt + 240 < 16 ^ 13) {content : Nat -> UInt8}
    (agree : forall k, k < 256 ->
      shown view.position.toInt.toNat k = content (view.position.toInt.toNat + k)) :
    Shows content view (screenOf shown view) := by
  refine ⟨by rw [screenOf, List.length_map, List.length_range], ?_⟩
  intro i row
  have upper := onPage.le_posmax
  have nonneg := onPage.nonneg
  have label : view.position.toInt.toNat + 16 * i < 16 ^ 13 := by omega
  rcases outline_reads onPage.format label
    (fun j => shown view.position.toInt.toNat (16 * i + j)) (6 + i) 2 with ⟨address, bytes⟩
  refine ⟨_, by rw [screenOf, List.getElem?_map, List.getElem?_range row, Option.map_some], address, ?_⟩
  rw [bytes]
  apply List.map_congr_left
  intro j member
  have column := List.mem_range.mp member
  rw [Nat.zero_add, Nat.add_assoc]
  exact agree (16 * i + j) (by omega)

/-- The screens of a session give back `content`: in order, one for each view that the
keys lead through, at a place where the navigation can be, and the last one for the
current view. -/
structure ShowsAlong (content : Nat -> UInt8) (posmax : Int64) (keys : List Keypress)
    (session : Session Device) : Prop where
  each : List.Forall₂ (Shows content)
    (View.start.loopTop :: shownViews posmax View.start.loopTop keys) session.screens
  inside : forall view, view ∈ View.start.loopTop :: shownViews posmax View.start.loopTop keys ->
    OnPage posmax view
  current : session.view.done = false -> Exists fun screen =>
    session.screens.getLast? = some screen /\ Shows content session.view screen

/-- A whole session on a file whose windows show `content`. -/
theorem Browsable.session_spec (file : Browsable Device) {device : Device} (usable : file.Usable device)
    {content : Nat -> UInt8} (short : file.posmax.toInt + 240 < 16 ^ 13)
    (agree : forall position k, k < 256 -> file.shown position k = content (position + k))
    (keys : List Keypress) :
    Exists fun first => openSession file.toDescriptor device = some (file.posmax, first) /\
      (LabelledRun.run (pressKey file.toDescriptor file.posmax) first keys).map Session.view =
        LabelledRun.run (iteration file.posmax) View.start.loopTop keys /\
      forall session, LabelledRun.run (pressKey file.toDescriptor file.posmax) first keys = some session ->
        ShowsAlong content file.posmax keys session := by
  rcases Browsable.openSession_begin usable with ⟨first, opened, waiting, begun⟩
  have refines := Browsable.run_browse waiting keys
  have bound := file.posmax_bound
  have views := run_view file.shown file.posmax (Browsing.begin file.shown) keys
  rw [begun] at refines
  refine ⟨first, opened, ?_, ?_⟩
  · rw [← refines, Option.map_map] at views
    exact views
  · intro session reached
    rw [reached, Option.map_some] at refines
    have begins : Current file.shown (Browsing.begin file.shown) := ⟨fun _ => rfl⟩
    have current := LabelledRun.invariant_of_run _ (Current file.shown) browse_current begins refines.symm
    have screens : session.screens = (View.start.loopTop ::
        shownViews file.posmax View.start.loopTop keys).map (screenOf file.shown) :=
      browse_screens refines.symm
    have inside : forall view, view ∈ View.start.loopTop :: shownViews file.posmax View.start.loopTop keys ->
        OnPage file.posmax view := by
      intro view member
      rcases List.mem_cons.mp member with starts | later
      · rw [starts]
        exact start_onPage bound
      · exact shownViews_onPage bound (start_onPage bound) keys later
    rw [← refines, Option.map_some] at views
    have onPage := run_onPage bound views.symm
    refine ⟨?_, inside, fun running => ?_⟩
    · rw [screens, List.forall₂_map_right_iff, List.forall₂_same]
      intro view member
      exact screenOf_shows (inside view member) short (agree _)
    · exact ⟨_, current.last running, screenOf_shows onPage short (agree _)⟩

/-! ## Regular files -/

/-- `lseek64()` on a regular file; a target that is no file offset is refused. -/
def fileSeek (content : List UInt8) (device : FileDevice) (offset : Int64) (whence : Int32) :
    FileDevice × Int64 :=
  let base : Option Int :=
    if whence = 0 then some 0
    else if whence = 1 then some device.offset
    else if whence = 2 then some content.length
    else none
  match base with
  | none => (device, -1)
  | some start =>
      if 0 ≤ start + offset.toInt /\ start + offset.toInt < 2 ^ 63 then
        ({ device with offset := (start + offset.toInt).toNat }, Int64.ofInt (start + offset.toInt))
      else (device, -1)

def fileDescriptor (content : List UInt8) : Descriptor FileDevice :=
  ⟨fileSeek content, fileRead content⟩

/-- No call has failed or is going to fail. -/
def Intact (device : FileDevice) : Prop :=
  device.failed = false /\ forall call, (device.schedule call).isSome = true

/-- Without failures the reads of `fileReader` end only at the end of the file. -/
def intactReader (content : List UInt8) : SequentialReader FileDevice where
  read := fileRead content
  content := fileByte content
  offset := FileDevice.offset
  Ready := fun device => Intact device /\ device.offset ≤ content.length
  Ended := fun device => Intact device /\ device.offset = content.length
  read_spec := by
    intro device count ready positive bounded
    rcases ready with ⟨⟨noFailure, answers⟩, inside⟩
    rcases Option.isSome_iff_exists.mp (answers 0) with ⟨proposed, proposal⟩
    have later : forall offset,
        Intact { device with schedule := fun call => device.schedule (call + 1), offset := offset } :=
      fun _ => ⟨noFailure, fun call => answers (call + 1)⟩
    rcases (fileReader content).read_spec device count inside positive bounded with
      ⟨nothing, stored, kept, before, stops⟩ | ⟨advance, some_, fits, returned, stored, moved, ready⟩
    · have device_ : Intact (fileRead content device count).device := by
        rw [fileRead, proposal]
        exact later _
      refine Or.inl ⟨nothing, stored, kept, device_, ?_⟩
      rcases stops with failed | atEnd
      · exact absurd (device_.1.symm.trans failed) (by decide)
      · exact atEnd
    · refine Or.inr ⟨advance, some_, fits, returned, stored, moved, ?_, ready⟩
      rw [fileRead, proposal]
      exact later _

/-- The byte shown at a distance from a position: that of the file, and after
its end the erased buffer. -/
def fileShown (content : List UInt8) (position distance : Nat) : UInt8 :=
  if position + distance < content.length then fileByte content (position + distance) else 0xFF

theorem fileSeek_set (content : List UInt8) (device : FileDevice) {position : Int64}
    (nonneg : 0 ≤ position.toInt) :
    fileSeek content device position 0 =
      ({ device with offset := position.toInt.toNat }, position) := by
  have range : 0 ≤ position.toInt /\ position.toInt < 2 ^ 63 := ⟨nonneg, position.toInt_lt⟩
  simp only [fileSeek, if_true, Int.zero_add, if_pos range, Int64.ofInt_toInt]

theorem fileSeek_end {content : List UInt8} (representable : content.length < 2 ^ 63)
    (device : FileDevice) :
    fileSeek content device 0 2 = ({ device with offset := content.length }, filesizeOf content) := by
  have range : (0 : Int) ≤ content.length /\ (content.length : Int) < 2 ^ 63 := by omega
  have notSet : ¬ (2 : Int32) = 0 := by decide
  have notCurrent : ¬ (2 : Int32) = 1 := by decide
  simp only [fileSeek, if_neg notSet, if_neg notCurrent, if_true, Int64.toInt_zero, Int.add_zero,
    if_pos range, Int.toNat_natCast]
  rfl

/-- A regular file can be browsed however its reads are split. -/
def browsableFile (content : List UInt8) (representable : content.length < 2 ^ 63) :
    Browsable FileDevice where
  toDescriptor := fileDescriptor content
  Usable := Intact
  filesize := filesizeOf content
  shown := fileShown content
  filesize_nonneg := by
    rw [filesizeOf, Int64.toInt_ofNat_of_lt representable]
    omega
  seek_end := by
    intro device usable
    simp only [fileDescriptor, fileSeek_end representable, true_and]
    exact usable
  window := by
    intro device position usable _aligned nonneg within buffer
    have size : (filesizeOf content).toInt = content.length := Int64.toInt_ofNat_of_lt representable
    have limit := toInt_posmaxOf (show 0 ≤ (filesizeOf content).toInt by omega)
    simp only [fileDescriptor, fileSeek_set content device nonneg, true_and]
    have ready : (intactReader content).Ready { device with offset := position.toInt.toNat } :=
      ⟨usable, by simp only; omega⟩
    rcases SequentialReader.fillLoop_spec ready buffer (Nat.le_refl bufsize) with
      ⟨filled, returned, holds, whyStopped⟩
    have offset : filled.device.offset = position.toInt.toNat + filled.place := holds.offset_eq
    have state : Intact filled.device /\ filled.device.offset ≤ content.length := by
      cases stopped : filled.stopped with
      | false => exact holds.ready stopped
      | true => exact ⟨(holds.ended stopped).1, Nat.le_of_eq (holds.ended stopped).2⟩
    refine ⟨filled, returned, state.1, ?_⟩
    intro erased k inside
    have fits := holds.place_le
    rw [fileShown]
    by_cases obtained : k < filled.place
    · rw [holds.read_part k obtained, if_pos (by have bound := state.2; omega)]
      rfl
    · -- the loop stopped before `k`, which is then past the end of the file
      have past : ¬ position.toInt.toNat + k < content.length := by
        rcases whyStopped with full | ended
        · omega
        · have atEnd : filled.device.offset = content.length := ended.2
          omega
      rw [holds.rest_part k (Nat.le_of_not_lt obtained), if_neg past, erased k inside]

/-- A whole session on a file of at most `2 ^ 52` bytes, however its reads are
split.  The file is opened, and after every sequence of keys the view is that
of the navigation.  There is one screen for each view that the keys lead through, and
in the format of that view its lines give back consecutive addresses with the bytes of
the file there, and `0xFF` after its end; the last one belongs to the current view. -/
theorem session_shows_file (content : List UInt8) (short : content.length ≤ 2 ^ 52)
    (device : FileDevice) (intact : Intact device) (keys : List Keypress) :
    Exists fun first =>
      openSession (fileDescriptor content) device = some (posmaxOf (filesizeOf content), first) /\
      (LabelledRun.run (pressKey (fileDescriptor content) (posmaxOf (filesizeOf content))) first
          keys).map Session.view =
        LabelledRun.run (iteration (posmaxOf (filesizeOf content))) View.start.loopTop keys /\
      forall session,
        LabelledRun.run (pressKey (fileDescriptor content) (posmaxOf (filesizeOf content))) first keys =
          some session ->
        ShowsAlong (fileShown content 0) (posmaxOf (filesizeOf content)) keys session := by
  have representable : content.length < 2 ^ 63 := by omega
  apply (browsableFile content representable).session_spec intact
  · have size : (filesizeOf content).toInt = content.length := Int64.toInt_ofNat_of_lt representable
    have limit := toInt_posmaxOf (show 0 ≤ (filesizeOf content).toInt by omega)
    have same : (browsableFile content representable).posmax = posmaxOf (filesizeOf content) := rfl
    rw [same, limit]
    omega
  · intro position k _inside
    simp only [browsableFile, fileShown, Nat.zero_add]

/-- Three bytes, read one at a time, with a format key and the end key: the current
screen shows them as words at address zero. -/
theorem session_shows_file_short :
    Exists fun first =>
      openSession (fileDescriptor [0x41, 0x42, 0x43]) ⟨0, fun _ => some 1, false⟩ =
          some (posmaxOf (filesizeOf [0x41, 0x42, 0x43]), first) /\
        Exists fun session => Exists fun screen => Exists fun line =>
          LabelledRun.run (pressKey (fileDescriptor [0x41, 0x42, 0x43])
            (posmaxOf (filesizeOf [0x41, 0x42, 0x43]))) first [⟨0x57, []⟩, ⟨kbEnd, []⟩] = some session /\
          session.screens.length = 3 /\ session.screens.getLast? = some screen /\ screen[0]? = some line /\
          lineAddress line = 0 /\
          lineBytes 2 line = [0x41, 0x42, 0x43] ++ List.replicate 13 0xFF := by
  rcases session_shows_file [0x41, 0x42, 0x43] (by decide) ⟨0, fun _ => some 1, false⟩
    ⟨rfl, fun _ => rfl⟩ [⟨0x57, []⟩, ⟨kbEnd, []⟩] with ⟨first, opened, views, shows⟩
  have moved : LabelledRun.run (iteration (posmaxOf (filesizeOf [0x41, 0x42, 0x43]))) View.start.loopTop
      [⟨0x57, []⟩, ⟨kbEnd, []⟩] = some ⟨0, 0x100, 2, false⟩ := by decide +kernel
  rw [moved, Option.map_eq_some_iff] at views
  rcases views with ⟨session, reached, view⟩
  have along := shows session reached
  have count : (shownViews (posmaxOf (filesizeOf [0x41, 0x42, 0x43])) View.start.loopTop
      [⟨0x57, []⟩, ⟨kbEnd, []⟩]).length = 2 := by decide +kernel
  have screens := along.each.length_eq
  rw [List.length_cons, count] at screens
  rcases along.current (by rw [view]) with ⟨screen, last, _lines, rows⟩
  rcases rows 0 (by decide) with ⟨line, found, address, bytes⟩
  rw [view] at address bytes
  exact ⟨first, opened, session, screen, line, reached, screens.symm, last, found, address,
    bytes.trans (by decide +kernel)⟩

end Fileview
end KernelStudy
