import KernelStudy.Foundations.MachineWord
import KernelStudy.Foundations.LabelledRun
import KernelStudy.Fileview.SeekPrompt

namespace KernelStudy
namespace Fileview

open LabelledRun

/-!
# The seek prompt is a line editor

The loop of the prompt remaps three keys to a backspace, deletes, and then
falls through to the test for printable codes.  What it keeps in `inbuf` and
`i` is compared with a reference editor that only has a line: a printable code
is appended, the three keys remove the last character, and every other code
has no effect.

The invariant is that the line fills the buffer up to `i` and that zeros
follow.  It is what terminates the string, whatever was typed and erased.
-/

/-! ## The reference editor -/

/-- The keys that delete. -/
def Deletes (code : Int64) : Prop :=
  code = kbBack \/ code = kbLeft \/ code = kbDel

instance (code : Int64) : Decidable (Deletes code) :=
  inferInstanceAs (Decidable (code = kbBack \/ code = kbLeft \/ code = kbDel))

/-- The effect of a code on the line. -/
def editLine (line : List UInt8) (code : Int64) : List UInt8 :=
  if 0x20 ≤ code /\ code ≤ 0x7E then line ++ [code.toUInt64.toUInt8]
  else if Deletes code then line.dropLast
  else line

/-- The line after some reads. -/
def lineAfter (typed : List Int64) : List UInt8 :=
  typed.foldl (fun line inch => editLine line (keyCode inch)) []

/-- The editor ends when its line has fifteen characters, at the first ENTER
with its line, and at the first ESC with an empty line.  The codes that are
left unread are returned as well. -/
def referenceEditor : List UInt8 -> List Int64 -> Option (List UInt8 × List Int64)
  | line, [] => if line.length = 15 then some (line, []) else none
  | line, inch :: rest =>
      if line.length = 15 then some (line, inch :: rest)
      else if keyCode inch = 0x0A then some (line, rest)
      else if keyCode inch = kbQuit then some ([], rest)
      else referenceEditor (editLine line (keyCode inch)) rest

/-! ## The passes of the loop -/

/-- From one evaluation of the loop condition to the next. -/
def promptStep (state : PromptState) (inch : Int64) : Option PromptState :=
  if 15 ≤ state.i then none
  else
    match promptBody state inch with
    | .finished _ => none
    | .waiting next => some next

/-- The elements of `inbuf` that a pass assigns to, in order. -/
def promptWrites (state : PromptState) (inch : Int64) : List Nat :=
  let ch := keyCode inch
  if ch = 0x0A then []
  else if ch = kbQuit then [0]
  else
    let ch := promptKey ch
    let erases := ch = kbBack /\ 0 < state.i
    let erased := if erases then [state.i - 1] else []
    let i := if erases then state.i - 1 else state.i
    if ch < 0x20 \/ ch > 0x7E then erased else erased ++ [i]

/-- The state that a pass leaves. -/
def PromptOutcome.state : PromptOutcome -> PromptState
  | .finished state => state
  | .waiting state => state

/-- The line fills `inbuf` up to `i`, and zeros follow. -/
structure HoldsLine (line : List UInt8) (state : PromptState) : Prop where
  count : state.i = line.length
  fits : line.length ≤ 15
  shown : (List.range state.i).map state.inbuf = line
  zeros : forall index, state.i ≤ index -> index < 16 -> state.inbuf index = 0
  printable : forall ch, ch ∈ line -> ch ≠ 0

/-! ## Key codes -/

theorem byte_ne_zero {code : Int64} (lower : 0x20 ≤ code) (upper : code ≤ 0x7E) :
    code.toUInt64.toUInt8 ≠ 0 := by
  have low := Int64.le_iff_toInt_le.mp lower
  have high := Int64.le_iff_toInt_le.mp upper
  have least : (0x20 : Int64).toInt = 0x20 := rfl
  have greatest : (0x7E : Int64).toInt = 0x7E := rfl
  have unsigned := MachineWord.toNat_toUInt64_of_nonneg (show 0 ≤ code.toInt by omega)
  intro zero
  have value := congrArg UInt8.toNat zero
  rw [UInt64.toNat_toUInt8, UInt8.toNat_zero] at value
  omega

theorem promptKey_deletes {code : Int64} (deletes : Deletes code) : promptKey code = kbBack := by
  rcases deletes with back | left | del
  · subst code
    decide
  · subst code
    decide
  · subst code
    decide

theorem promptKey_other {code : Int64} (keeps : ¬ Deletes code) : promptKey code = code := by
  have notLeft : code ≠ kbLeft := fun left => keeps (Or.inr (Or.inl left))
  have notDel : code ≠ kbDel := fun del => keeps (Or.inr (Or.inr del))
  simp only [promptKey, if_neg notLeft, if_neg notDel]

/-- The keys that delete lie above the printable codes. -/
theorem deletes_above {code : Int64} (deletes : Deletes code) : code > 0x7E := by
  rcases deletes with back | left | del
  · subst code
    decide
  · subst code
    decide
  · subst code
    decide

theorem outside_iff (code : Int64) :
    (code < 0x20 \/ code > 0x7E) <-> ¬ (0x20 ≤ code /\ code ≤ 0x7E) := by
  simp only [gt_iff_lt, Int64.lt_iff_toInt_lt, Int64.le_iff_toInt_le]
  omega

/-- A code is remapped to a backspace, or is tested as it is. -/
theorem promptKey_cases (code : Int64) :
    (Deletes code /\ promptKey code = kbBack /\ ¬ (0x20 ≤ code /\ code ≤ 0x7E)) \/
      (¬ Deletes code /\ promptKey code = code /\ code ≠ kbBack) := by
  by_cases deletes : Deletes code
  · exact Or.inl ⟨deletes, promptKey_deletes deletes,
      (outside_iff code).mp (Or.inr (deletes_above deletes))⟩
  · exact Or.inr ⟨deletes, promptKey_other deletes, fun back => deletes (Or.inl back)⟩

theorem kbBack_outside : kbBack < 0x20 \/ kbBack > 0x7E := by decide

/-! ## One pass -/

/-- The state after a code that does not end the prompt. -/
def edited (state : PromptState) (code : Int64) : PromptState :=
  if 0x20 ≤ code /\ code ≤ 0x7E then ⟨state.write state.i code.toUInt64.toUInt8, state.i + 1⟩
  else if Deletes code /\ 0 < state.i then ⟨state.write (state.i - 1) 0, state.i - 1⟩
  else state

/-- The remapping and the fall-through come to the two kinds of codes that
change the line. -/
theorem promptBody_eq {state : PromptState} {inch : Int64} (notEnter : keyCode inch ≠ 0x0A)
    (notQuit : keyCode inch ≠ kbQuit) :
    promptBody state inch = .waiting (edited state (keyCode inch)) := by
  rcases promptKey_cases (keyCode inch) with ⟨deletes, back, outside⟩ | ⟨keeps, same, notBack⟩
  · simp only [promptBody, edited, if_neg notEnter, if_neg notQuit, back, if_pos kbBack_outside,
      if_neg outside, deletes, true_and]
  · simp only [promptBody, edited, if_neg notEnter, if_neg notQuit, same, outside_iff, ite_not,
      notBack, keeps, false_and, if_false]
    split <;> rfl

theorem promptBody_enter {state : PromptState} {inch : Int64} (enter : keyCode inch = 0x0A) :
    promptBody state inch = .finished state := by
  simp only [promptBody, if_pos enter]

theorem promptBody_quit {state : PromptState} {inch : Int64} (quit : keyCode inch = kbQuit) :
    promptBody state inch = .finished { state with inbuf := state.write 0 0 } := by
  have notEnter : keyCode inch ≠ 0x0A := by
    rw [quit]
    decide
  simp only [promptBody, if_neg notEnter, if_pos quit]

/-- The writes in the same terms. -/
theorem promptWrites_eq {state : PromptState} {inch : Int64} (notEnter : keyCode inch ≠ 0x0A)
    (notQuit : keyCode inch ≠ kbQuit) :
    promptWrites state inch =
      if 0x20 ≤ keyCode inch /\ keyCode inch ≤ 0x7E then [state.i]
      else if Deletes (keyCode inch) /\ 0 < state.i then [state.i - 1] else [] := by
  rcases promptKey_cases (keyCode inch) with ⟨deletes, back, outside⟩ | ⟨keeps, same, notBack⟩
  · simp only [promptWrites, if_neg notEnter, if_neg notQuit, back, if_pos kbBack_outside,
      if_neg outside, deletes, true_and]
  · simp only [promptWrites, if_neg notEnter, if_neg notQuit, same, outside_iff, ite_not, notBack,
      keeps, false_and, if_false, List.nil_append]

theorem write_self (state : PromptState) (index : Nat) (value : UInt8) :
    state.write index value index = value :=
  if_pos rfl

theorem write_other {state : PromptState} {index other : Nat} (value : UInt8) (ne : other ≠ index) :
    state.write index value other = state.inbuf other :=
  if_neg ne

/-- Every element that a pass does not assign to keeps its value. -/
theorem promptBody_frame {state : PromptState} {inch : Int64} {index : Nat}
    (untouched : index ∉ promptWrites state inch) :
    (promptBody state inch).state.inbuf index = state.inbuf index := by
  by_cases enter : keyCode inch = 0x0A
  · rw [promptBody_enter enter]
    rfl
  by_cases quit : keyCode inch = kbQuit
  · rw [promptWrites, if_neg enter, if_pos quit, List.mem_singleton] at untouched
    rw [promptBody_quit quit]
    exact write_other 0 untouched
  rw [promptWrites_eq enter quit] at untouched
  rw [promptBody_eq enter quit, PromptOutcome.state, edited]
  split
  · rename_i printable
    rw [if_pos printable, List.mem_singleton] at untouched
    exact write_other _ untouched
  · rename_i notPrintable
    rw [if_neg notPrintable] at untouched
    split
    · rename_i erases
      rw [if_pos erases, List.mem_singleton] at untouched
      exact write_other _ untouched
    · rfl

/-- No pass of the loop writes the last byte of the buffer, or beyond it. -/
theorem promptWrites_le {state : PromptState} (running : state.i < 15) {inch : Int64} {index : Nat}
    (written : index ∈ promptWrites state inch) : index ≤ 14 := by
  by_cases enter : keyCode inch = 0x0A
  · rw [promptWrites, if_pos enter] at written
    exact absurd written List.not_mem_nil
  by_cases quit : keyCode inch = kbQuit
  · rw [promptWrites, if_neg enter, if_pos quit, List.mem_singleton] at written
    omega
  rw [promptWrites_eq enter quit] at written
  split at written
  · rw [List.mem_singleton] at written
    omega
  · split at written
    · rw [List.mem_singleton] at written
      omega
    · exact absurd written List.not_mem_nil

/-! ## The invariant -/

theorem empty_holdsLine : HoldsLine [] .empty :=
  ⟨rfl, by decide, rfl, fun _ _ _ => rfl, List.forall_mem_nil _⟩

/-- A write behind the line does not show in it. -/
theorem map_write (state : PromptState) (value : UInt8) {count index : Nat} (behind : count ≤ index) :
    (List.range count).map (state.write index value) = (List.range count).map state.inbuf := by
  apply List.map_congr_left
  intro other member
  exact write_other value (by have := List.mem_range.mp member; omega)

theorem HoldsLine.append {line : List UInt8} {state : PromptState} (holds : HoldsLine line state)
    (running : state.i < 15) {value : UInt8} (nonzero : value ≠ 0) :
    HoldsLine (line ++ [value]) ⟨state.write state.i value, state.i + 1⟩ := by
  have count := holds.count
  refine ⟨?_, ?_, ?_, ?_, ?_⟩
  · rw [List.length_append, List.length_singleton, ← count]
  · rw [List.length_append, List.length_singleton]
    omega
  · rw [List.range_succ, List.map_append, map_write state value (Nat.le_refl _), holds.shown,
      List.map_singleton]
    exact congrArg (fun last => line ++ [last]) (write_self state state.i value)
  · intro index lower upper
    have ahead : state.i + 1 ≤ index := lower
    exact (write_other value (by omega)).trans (holds.zeros index (by omega) upper)
  · intro ch member
    rcases List.mem_append.mp member with earlier | last
    · exact holds.printable ch earlier
    · rw [List.mem_singleton.mp last]
      exact nonzero

theorem HoldsLine.dropLast {line : List UInt8} {state : PromptState} (holds : HoldsLine line state)
    (positive : 0 < state.i) :
    HoldsLine line.dropLast ⟨state.write (state.i - 1) 0, state.i - 1⟩ := by
  have count := holds.count
  have fits := holds.fits
  refine ⟨?_, ?_, ?_, ?_, ?_⟩
  · rw [List.length_dropLast, ← count]
  · rw [List.length_dropLast]
    omega
  · have split : state.i = state.i - 1 + 1 := by omega
    have shown := holds.shown
    rw [split, List.range_succ, List.map_append, List.map_singleton] at shown
    rw [map_write state 0 (Nat.le_refl _), ← shown, List.dropLast_concat]
  · intro index lower upper
    by_cases erased : index = state.i - 1
    · exact if_pos erased
    · have ahead : state.i - 1 ≤ index := lower
      exact (write_other 0 erased).trans (holds.zeros index (by omega) upper)
  · intro ch member
    exact holds.printable ch (List.mem_of_mem_dropLast member)

/-- One pass edits the line that the buffer holds. -/
theorem HoldsLine.edited {line : List UInt8} {state : PromptState} (holds : HoldsLine line state)
    (running : state.i < 15) (code : Int64) :
    HoldsLine (editLine line code) (edited state code) := by
  rw [editLine, Fileview.edited]
  by_cases printable : 0x20 ≤ code /\ code ≤ 0x7E
  · rw [if_pos printable, if_pos printable]
    exact holds.append running (byte_ne_zero printable.1 printable.2)
  · rw [if_neg printable, if_neg printable]
    by_cases deletes : Deletes code
    · rw [if_pos deletes]
      by_cases positive : 0 < state.i
      · rw [if_pos ⟨deletes, positive⟩]
        exact holds.dropLast positive
      · -- a delete on an empty line finds nothing to remove
        have count := holds.count
        have none : line = [] := List.eq_nil_of_length_eq_zero (by omega)
        rw [if_neg (fun both => positive both.2), none, List.dropLast_nil, ← none]
        exact holds
    · rw [if_neg deletes, if_neg (fun both => deletes both.1)]
      exact holds

/-- The string that starts at `inbuf` is the line. -/
theorem HoldsLine.text {line : List UInt8} {state : PromptState} (holds : HoldsLine line state) :
    state.text = line := by
  have count := holds.count
  have fits := holds.fits
  have parts : List.range 16 = List.range state.i ++ (List.range (15 - state.i + 1)).map (state.i + ·) := by
    rw [← List.range_add]
    congr 1
    omega
  have nonzero : forall ch, ch ∈ line -> (ch != 0) = true := by
    intro ch member
    exact bne_iff_ne.mpr (holds.printable ch member)
  have ends : state.inbuf (state.i + 0) = 0 := holds.zeros _ (Nat.le_refl _) (by omega)
  rw [PromptState.text, parts, List.map_append, holds.shown, List.takeWhile_append_of_pos nonzero,
    List.range_succ_eq_map, List.map_cons, List.map_cons, ends]
  simp

theorem text_of_first_zero {state : PromptState} (zero : state.inbuf 0 = 0) : state.text = [] := by
  rw [PromptState.text, List.range_succ_eq_map, List.map_cons, zero]
  simp

/-! ## Runs of the loop -/

theorem promptStep_cases {state next : PromptState} {inch : Int64}
    (taken : promptStep state inch = some next) :
    state.i < 15 /\ keyCode inch ≠ 0x0A /\ keyCode inch ≠ kbQuit /\
      next = edited state (keyCode inch) := by
  rw [promptStep] at taken
  split at taken
  · cases taken
  rename_i running
  by_cases enter : keyCode inch = 0x0A
  · rw [promptBody_enter enter] at taken
    cases taken
  by_cases quit : keyCode inch = kbQuit
  · rw [promptBody_quit quit] at taken
    cases taken
  rw [promptBody_eq enter quit] at taken
  exact ⟨by omega, enter, quit, (Option.some.inj taken).symm⟩

/-- Whenever the loop condition is evaluated, the buffer holds the line. -/
theorem run_holdsLine {typed : List Int64} {state : PromptState}
    (reached : run promptStep .empty typed = some state) : HoldsLine (lineAfter typed) state := by
  apply history_of_run promptStep (fun typed state => HoldsLine (lineAfter typed) state)
    empty_holdsLine ?_ reached
  intro labels state inch next holds taken
  rcases promptStep_cases taken with ⟨running, _notEnter, _notQuit, same⟩
  have extended : lineAfter (labels ++ [inch]) = editLine (lineAfter labels) (keyCode inch) :=
    List.foldl_append
  rw [extended, same]
  exact holds.edited running (keyCode inch)

/-- The states of these runs are those of the loop. -/
theorem promptLoop_of_run {typed rest : List Int64} {start state : PromptState}
    (reached : run promptStep start typed = some state) :
    promptLoop start (typed ++ rest) = promptLoop state rest := by
  induction typed generalizing start with
  | nil =>
      have same : start = state := Option.some.inj reached
      rw [same, List.nil_append]
  | cons inch typed inductionHypothesis =>
      rcases (run_cons promptStep).mp reached with ⟨next, taken, completed⟩
      rcases promptStep_cases taken with ⟨running, notEnter, notQuit, same⟩
      have body : promptBody start inch = .waiting (edited start (keyCode inch)) :=
        promptBody_eq notEnter notQuit
      rw [List.cons_append, promptLoop, if_neg (by omega), body, ← inductionHypothesis completed, same]

theorem HoldsLine.terminated {line : List UInt8} {state : PromptState} (holds : HoldsLine line state) :
    Exists fun index => index < 16 /\ state.inbuf index = 0 := by
  have count := holds.count
  have fits := holds.fits
  exact ⟨state.i, by omega, holds.zeros _ (Nat.le_refl _) (by omega)⟩

/-- What the prompt hands on: a line, as a string that ends inside the buffer. -/
structure HandsOver (line : List UInt8) (state : PromptState) : Prop where
  text : state.text = line
  terminated : Exists fun index => index < 16 /\ state.inbuf index = 0

/-- The loop waits while the editor waits, and ends where the editor ends, with
the editor's line as its string and the same codes unread. -/
theorem promptLoop_refines {line : List UInt8} {state : PromptState} (holds : HoldsLine line state)
    (typed : List Int64) :
    match promptLoop state typed with
    | none => referenceEditor line typed = none
    | some (final, rest) => Exists fun contents =>
        referenceEditor line typed = some (contents, rest) /\ HandsOver contents final := by
  induction typed generalizing line state with
  | nil =>
      have count := holds.count
      have fits := holds.fits
      by_cases full : line.length = 15
      · rw [promptLoop, if_pos (by omega)]
        exact ⟨line, if_pos full, holds.text, holds.terminated⟩
      · rw [promptLoop, if_neg (by omega)]
        exact if_neg full
  | cons inch rest inductionHypothesis =>
      have count := holds.count
      have fits := holds.fits
      by_cases full : line.length = 15
      · rw [promptLoop, if_pos (by omega)]
        exact ⟨line, if_pos full, holds.text, holds.terminated⟩
      have running : state.i < 15 := by omega
      rw [promptLoop, if_neg (by omega)]
      by_cases enter : keyCode inch = 0x0A
      · rw [promptBody_enter enter]
        refine ⟨line, ?_, holds.text, holds.terminated⟩
        rw [referenceEditor, if_neg full, if_pos enter]
      by_cases quit : keyCode inch = kbQuit
      · rw [promptBody_quit quit]
        have first : state.write 0 0 0 = 0 := write_self state 0 0
        refine ⟨[], ?_, text_of_first_zero first, 0, by omega, first⟩
        rw [referenceEditor, if_neg full, if_neg enter, if_pos quit]
      rw [promptBody_eq enter quit, referenceEditor, if_neg full, if_neg enter, if_neg quit]
      exact inductionHypothesis (holds.edited running (keyCode inch))

/-- The seek prompt for every sequence of reads.  In every state in which the
loop condition is evaluated, the buffer holds the edited line followed by
zeros, and what the next pass assigns to lies in the first fifteen elements.
The loop ends exactly when the reference editor ends, and hands its contents
over as a string that is terminated inside `inbuf`. -/
theorem prompt_is_line_editor (typed : List Int64) :
    (forall state, run promptStep .empty typed = some state ->
      (forall rest, promptLoop .empty (typed ++ rest) = promptLoop state rest) /\
      state.i ≤ 15 /\
      (List.range state.i).map state.inbuf = lineAfter typed /\
      (forall index, state.i ≤ index -> index < 16 -> state.inbuf index = 0) /\
      forall inch, state.i < 15 ->
        (forall index, index ∈ promptWrites state inch -> index ≤ 14) /\
        forall index, index ∉ promptWrites state inch ->
          (promptBody state inch).state.inbuf index = state.inbuf index) /\
    (promptLoop .empty typed).map (fun ended => (ended.1.text, ended.2)) = referenceEditor [] typed /\
    forall final rest, promptLoop .empty typed = some (final, rest) ->
      Exists fun index => index < 16 /\ final.inbuf index = 0 := by
  refine ⟨?_, ?_, ?_⟩
  · intro state reached
    have holds := run_holdsLine reached
    have count := holds.count
    have fits := holds.fits
    refine ⟨fun rest => promptLoop_of_run reached, by omega, holds.shown, holds.zeros, ?_⟩
    intro inch running
    exact ⟨fun index => promptWrites_le running, fun index => promptBody_frame⟩
  · have refines := promptLoop_refines empty_holdsLine typed
    cases ended : promptLoop .empty typed with
    | none =>
        rw [ended] at refines
        exact refines.symm
    | some pair =>
        rw [ended] at refines
        rcases refines with ⟨contents, editor, handed⟩
        rw [editor, Option.map_some, handed.text]
  · intro final rest ended
    have refines := promptLoop_refines empty_holdsLine typed
    rw [ended] at refines
    rcases refines with ⟨contents, _editor, handed⟩
    exact handed.terminated

end Fileview
end KernelStudy
