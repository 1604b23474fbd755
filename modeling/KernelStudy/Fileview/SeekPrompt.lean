import Mathlib

namespace KernelStudy
namespace Fileview

/-!
# Keyboard codes and the seek prompt

`fileview` reads one key at a time into a zeroed 64-bit word and keeps its
low 24 bits, so an escape sequence of three bytes is a single code.  The seek
prompt edits a line of at most fifteen characters in a 16-byte buffer and
hands it to `strtoull` in base sixteen.

The prompt is modelled over the list of codes that are typed.  Running out of
codes is not the end of the prompt: the loop is still waiting, and the result
is `none`.
-/

/-! ## Key codes -/

def kbSeek : Int64 := 0x0000000A
def kbQuit : Int64 := 0x0000001B
def kbBack : Int64 := 0x0000007F
def kbHome : Int64 := 0x00315B1B
def kbLnup : Int64 := 0x00415B1B
def kbPgup : Int64 := 0x00355B1B
def kbLeft : Int64 := 0x00445B1B
def kbRght : Int64 := 0x00435B1B
def kbLndn : Int64 := 0x00425B1B
def kbPgdn : Int64 := 0x00365B1B
def kbEnd : Int64 := 0x00345B1B
def kbDel : Int64 := 0x00335B1B

/-- The code that remains of one `read()` from the keyboard. -/
def keyCode (inch : Int64) : Int64 :=
  inch &&& 0x00FFFFFF

/-! ## The line editor -/

/-- The local variables `inbuf` and `i` of the prompt. -/
structure PromptState where
  inbuf : Nat -> UInt8
  i : Nat

def PromptState.empty : PromptState := ⟨fun _ => 0, 0⟩

def PromptState.write (state : PromptState) (index : Nat) (value : UInt8) : Nat -> UInt8 :=
  fun other => if other = index then value else state.inbuf other

/-- How one pass of the loop body leaves: by `break`, or by `continue` and
falling off the end. -/
inductive PromptOutcome where
  | finished (state : PromptState)
  | waiting (state : PromptState)

/-- The cursor and delete keys act as a backspace. -/
def promptKey (ch : Int64) : Int64 :=
  let ch := if ch = kbLeft then kbBack else ch
  if ch = kbDel then kbBack else ch

def promptBody (state : PromptState) (inch : Int64) : PromptOutcome :=
  let ch := keyCode inch
  if ch = 0x0A then .finished state
  else if ch = kbQuit then .finished { state with inbuf := state.write 0 0 }
  else
    let ch := promptKey ch
    let state : PromptState :=
      if ch = kbBack /\ 0 < state.i then ⟨state.write (state.i - 1) 0, state.i - 1⟩ else state
    if ch < 0x20 \/ ch > 0x7E then .waiting state
    else .waiting ⟨state.write state.i ch.toUInt64.toUInt8, state.i + 1⟩

/-- `while (i < 15)`, with the codes that remain unread when it ends. -/
def promptLoop : PromptState -> List Int64 -> Option (PromptState × List Int64)
  | state, [] => if 15 ≤ state.i then some (state, []) else none
  | state, inch :: rest =>
      if 15 ≤ state.i then some (state, inch :: rest)
      else
        match promptBody state inch with
        | .finished state => some (state, rest)
        | .waiting state => promptLoop state rest

/-- The characters of `inbuf` before its first zero byte. -/
def PromptState.text (state : PromptState) : List UInt8 :=
  ((List.range 16).map state.inbuf).takeWhile (fun ch => ch != 0)

/-! ## Parsing the typed address -/

def isSpace (ch : UInt8) : Bool :=
  ch == 0x20 || (0x09 ≤ ch && ch ≤ 0x0D)

def hexValue (ch : UInt8) : Option Nat :=
  if 0x30 ≤ ch ∧ ch ≤ 0x39 then some (ch.toNat - 0x30)
  else if 0x41 ≤ ch ∧ ch ≤ 0x46 then some (ch.toNat - 0x41 + 10)
  else if 0x61 ≤ ch ∧ ch ≤ 0x66 then some (ch.toNat - 0x61 + 10)
  else none

/-- An optional sign; a minus negates the result as an unsigned number. -/
def splitSign : List UInt8 -> Bool × List UInt8
  | [] => (false, [])
  | ch :: rest =>
      if ch = 0x2D then (true, rest) else if ch = 0x2B then (false, rest) else (false, ch :: rest)

/-- An optional `0x`, which only counts before a hexadecimal digit. -/
def dropRadixMark : List UInt8 -> List UInt8
  | zero :: mark :: digit :: rest =>
      if zero = 0x30 ∧ (mark = 0x78 ∨ mark = 0x58) ∧ (hexValue digit).isSome
      then digit :: rest else zero :: mark :: digit :: rest
  | text => text

/-- The value of the longest initial run of digits. -/
def leadingHex : Nat -> List UInt8 -> Nat
  | value, [] => value
  | value, ch :: rest =>
      match hexValue ch with
      | some digit => leadingHex (16 * value + digit) rest
      | none => value

/-- `strtoull(text, NULL, 16)`; a value out of range becomes `ULLONG_MAX`. -/
def strtoull (text : List UInt8) : UInt64 :=
  let signed := splitSign (text.dropWhile isSpace)
  let value := leadingHex 0 (dropRadixMark signed.2)
  if 2 ^ 64 ≤ value then 0xFFFFFFFFFFFFFFFF
  else if signed.1 then 0 - UInt64.ofNat value
  else UInt64.ofNat value

/-- The whole prompt: the typed codes must be exactly those it reads. -/
def seekPrompt (typed : List Int64) : Option (List UInt8) :=
  match promptLoop .empty typed with
  | some (state, []) => some state.text
  | _ => none

end Fileview
end KernelStudy
