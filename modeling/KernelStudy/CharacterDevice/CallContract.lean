import KernelStudy.CharacterDevice.Handlers
import KernelStudy.Foundations.LabelledRun

namespace KernelStudy
namespace CharacterDevice

open LabelledRun

/-!
# The read and write contract

A caller of `read` or `write` passes a length and learns from the return value
how many bytes were moved.  The handlers use neither the length nor the number
of bytes that a copy left out: they always ask for 64 bytes and always return
0.  A call that moves bytes returns the wrong number, and a call that moves
none has failed and returns 0 all the same.  So no call keeps the contract,
whatever the length, the fault position and the calls before it.
-/

/-- A call of one of the file operations.  The user memory is described by the
number of bytes from the start of the user's buffer that can be written, or by
the bytes that can be read. -/
inductive UserCall where
  | read (process : Nat) (lbuf : UInt64) (writable : Nat)
  | write (process : Nat) (count : UInt64) (readable : List UInt8)
deriving DecidableEq, Repr

/-- The number of user bytes that a write takes. -/
def takenFromUser (readable : List UInt8) : Nat :=
  min 64 readable.length

/-- What `read` promises, given the bytes stored at the user and the return
value.  The copy faults iff the user cannot take all of its 64 bytes. -/
structure ReadContract (lbuf : UInt64) (writable : Nat) (stored : List UInt8) (ret : Int64) :
    Prop where
  bounded : stored.length ≤ lbuf.toNat
  counted : ret.toInt = stored.length \/ ret.toInt < 0
  fault_reported : writable < 64 -> ret.toInt < 0

/-- What `write` promises, given the buffer before and after it and the return
value. -/
structure WriteContract (count : UInt64) (readable : List UInt8) (before after : Buffer)
    (ret : Int64) : Prop where
  bounded : takenFromUser readable ≤ count.toNat
  counted : ret.toInt = takenFromUser readable \/ ret.toInt < 0
  untaken : after.bytes.drop (takenFromUser readable) = before.bytes.drop (takenFromUser readable)
  fault_reported : readable.length < 64 -> ret.toInt < 0

/-- The buffer after a call. -/
def callStep (buffer : Buffer) : UserCall -> Option Buffer
  | .read _ lbuf writable => (mycdevRead (some buffer) writable lbuf).map fun _ => buffer
  | .write _ count readable => (mycdevWrite (some buffer) readable count).map Prod.fst

/-- The call keeps its contract. -/
def KeepsContract (buffer : Buffer) : UserCall -> Prop
  | .read _ lbuf writable => forall stored ret,
      mycdevRead (some buffer) writable lbuf = some (stored, ret) ->
      ReadContract lbuf writable stored ret
  | .write _ count readable => forall after ret,
      mycdevWrite (some buffer) readable count = some (after, ret) ->
      WriteContract count readable buffer after ret

/-! ## No call keeps it -/

/-- A return value of 0 fits neither a copy that moved bytes nor one that
failed at its first byte. -/
theorem zero_not_counted {moved accessible : Nat} (copied : moved = min 64 accessible)
    (counted : (0 : Int64).toInt = moved \/ (0 : Int64).toInt < 0)
    (fault_reported : accessible < 64 -> (0 : Int64).toInt < 0) : False := by
  have zero : (0 : Int64).toInt = 0 := rfl
  have faultless : 64 ≤ accessible := by
    by_contra short
    have negative := fault_reported (by omega)
    omega
  rcases counted with exact_ | negative
  · omega
  · omega

theorem read_breaks_contract (buffer : Buffer) (lbuf : UInt64) (writable : Nat) :
    Not (ReadContract lbuf writable ((buffer.bytes.take 64).take writable) 0) := by
  intro contract
  have copied : ((buffer.bytes.take 64).take writable).length = min 64 writable := by
    rw [List.length_take, List.length_take, buffer.size]
    omega
  exact zero_not_counted copied contract.counted contract.fault_reported

theorem write_breaks_contract (count : UInt64) (readable : List UInt8) (before after : Buffer) :
    Not (WriteContract count readable before after 0) := by
  intro contract
  exact zero_not_counted rfl contract.counted contract.fault_reported

/-- Every call can be made, and breaks its contract. -/
theorem call_breaks_contract (buffer : Buffer) (call : UserCall) :
    (callStep buffer call).isSome = true /\ Not (KeepsContract buffer call) := by
  cases call with
  | read process lbuf writable =>
      refine ⟨rfl, fun keeps => ?_⟩
      exact read_breaks_contract buffer lbuf writable (keeps _ _ rfl)
  | write process count readable =>
      refine ⟨rfl, fun keeps => ?_⟩
      exact write_breaks_contract count readable buffer _ (keeps _ _ rfl)

/-- No call keeps the contract in any buffer.  A run of reads and writes by any
processes keeps it only when it is empty. -/
theorem calls_keep_contract_iff (buffer : Buffer) (calls : List UserCall) :
    (forall call, Not (KeepsContract buffer call)) /\
      (RunMeets callStep KeepsContract buffer calls <-> calls = []) := by
  refine ⟨fun call => (call_breaks_contract buffer call).2, ?_⟩
  cases calls with
  | nil => exact ⟨fun _ => rfl, fun _ => trivial⟩
  | cons call rest =>
      rcases call_breaks_contract buffer call with ⟨possible, breaks⟩
      rcases Option.isSome_iff_exists.mp possible with ⟨next, taken⟩
      refine ⟨fun meets => ?_, nofun⟩
      exact (breaks (meets next taken).1).elim

/-- The call of the sample client: 64 bytes are read into a buffer of 64
bytes, and the call returns 0. -/
theorem client_read_returns_zero :
    Not (forall (buffer : Buffer) (calls : List UserCall),
      RunMeets callStep KeepsContract buffer calls) := by
  intro always
  have kept := (always (Buffer.image [] (by decide)) [.read 1 64 64] _ rfl).1 _ _ rfl
  rcases kept.counted with exact_ | negative
  · rw [List.length_take, List.length_take, Buffer.size] at exact_
    exact absurd exact_ (by decide)
  · exact absurd negative (by decide)

end CharacterDevice
end KernelStudy
