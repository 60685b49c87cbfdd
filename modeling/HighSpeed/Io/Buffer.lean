import HighSpeed.Lib.CxxVector
import HighSpeed.Lib.Run

/-!
`Buffer` of `io/Buffer.hpp`: a byte vector with a read index and a write index, with
`kCheapPrepend` bytes kept free in front.
-/

namespace HighSpeed

structure Buffer where
  buffer : List Char
  readIndex : Nat
  writeIndex : Nat

namespace Buffer

def kCheapPrepend : Nat := 8

/-- `max_size()` of `std::vector<char>`: `PTRDIFF_MAX`, `2^63 - 1`. -/
def maxSize : Nat := 9223372036854775807

section
/-- `Buffer(size_t initialSize = 1024)`: the size `kCheapPrepend + initialSize` is a `size_t`
sum, and the vector constructor throws `std::length_error` past `max_size()`. -/
@[local simp]
def create (initialSize : UInt64 := 1024) : Option Buffer :=
  let size := (kCheapPrepend.toUInt64 + initialSize).toNat
  if maxSize < size then none
  else some ⟨List.replicate size '\x00', kCheapPrepend, kCheapPrepend⟩

@[local simp]
def readableBytes (b : Buffer) : Nat := b.writeIndex - b.readIndex

@[local simp]
def writableBytes (b : Buffer) : Nat := b.buffer.length - b.writeIndex
end

def prependableBytes (b : Buffer) : Nat := b.readIndex

section
@[local simp]
def readable (b : Buffer) : List Char := (b.buffer.drop b.readIndex).take b.readableBytes

@[local simp]
def retrieveAll (b : Buffer) : Buffer :=
  { b with readIndex := kCheapPrepend, writeIndex := kCheapPrepend }

@[local simp]
def retrieve (b : Buffer) (len : Nat) : Buffer :=
  if len < b.readableBytes then { b with readIndex := b.readIndex + len } else b.retrieveAll
end

/-- `retrieveAsString`: the string read from `peek()`, and the buffer after `retrieve`. -/
def retrieveAsString (b : Buffer) (len : Nat) : List Char × Buffer :=
  let len := min len b.readableBytes
  ((b.buffer.drop b.readIndex).take len, b.retrieve len)

def retrieveAllAsString (b : Buffer) : List Char × Buffer :=
  b.retrieveAsString b.readableBytes

def makeSpace (b : Buffer) (len : Nat) : Option Buffer :=
  if b.writableBytes + b.prependableBytes < len + kCheapPrepend then
    (CxxVector.resize maxSize b.buffer (b.writeIndex + len) '\x00').map fun grown =>
      { b with buffer := grown }
  else
    let readable := b.readableBytes
    (CxxVector.copyTo b.buffer kCheapPrepend ((b.buffer.drop b.readIndex).take readable)).map
      fun moved => { buffer := moved, readIndex := kCheapPrepend, writeIndex := kCheapPrepend + readable }

/-- `append`; `none` when `makeSpace` throws or `std::copy` runs past `end()`. -/
def append (b : Buffer) (data : List Char) : Option Buffer :=
  (if data.length > b.writableBytes then b.makeSpace data.length else some b).bind fun b =>
    (CxxVector.copyTo b.buffer b.writeIndex data).map fun written =>
      { b with buffer := written, writeIndex := b.writeIndex + data.length }

/-- `readFd` after `readv` returned `n = received.length ≥ 0`: the first `writableBytes()` bytes
land at `beginWrite()`, the rest in `extraBuf`, which is appended. -/
def readFd (b : Buffer) (received : List Char) : Option Buffer :=
  let writable := b.writableBytes
  if received.length ≤ writable then
    (CxxVector.copyTo b.buffer b.writeIndex received).map fun written =>
      { b with buffer := written, writeIndex := b.writeIndex + received.length }
  else
    (CxxVector.copyTo b.buffer b.writeIndex (received.take writable)).bind fun written =>
      ({ b with buffer := written, writeIndex := b.buffer.length } : Buffer).append
        (received.drop writable)

def writeFd (b : Buffer) (accepted : Nat) : Buffer := b.retrieve accepted

inductive Operation where
  | append (data : List Char)
  | retrieve (len : Nat)
  | retrieveAll
  | retrieveAsString (len : Nat)
  | retrieveAllAsString
  | readFd (received : Option (List Char))
  | writeFd (accepted : Option Nat)

def perform (b : Buffer) : Operation → Option (Buffer × List Char)
  | .append data => (b.append data).map fun b => (b, [])
  | .retrieve len => some (b.retrieve len, [])
  | .retrieveAll => some (b.retrieveAll, [])
  | .retrieveAsString len => some ((b.retrieveAsString len).2, (b.retrieveAsString len).1)
  | .retrieveAllAsString => some (b.retrieveAllAsString.2, b.retrieveAllAsString.1)
  | .readFd (some received) => (b.readFd received).map fun b => (b, [])
  | .readFd none => some (b, [])
  | .writeFd (some accepted) => some (b.writeFd accepted, [])
  | .writeFd none => some (b, [])

section
@[local simp]
def step (state : Option (Buffer × List (List Char))) (operation : Operation) :
    Option (Buffer × List (List Char)) :=
  state.bind fun current =>
    (current.1.perform operation).map fun performed => (performed.1, current.2 ++ [performed.2])
end

end Buffer

/-! ## The FIFO the buffer stands for -/

namespace ByteQueue

def perform (queue : List Char) : Buffer.Operation → List Char × List Char
  | .append data => (queue ++ data, [])
  | .retrieve len => (queue.drop len, [])
  | .retrieveAll => ([], [])
  | .retrieveAsString len => (queue.drop len, queue.take len)
  | .retrieveAllAsString => ([], queue)
  | .readFd (some received) => (queue ++ received, [])
  | .readFd none => (queue, [])
  | .writeFd (some accepted) => (queue.drop accepted, [])
  | .writeFd none => (queue, [])

section
@[local simp]
def step (state : List Char × List (List Char)) (operation : Buffer.Operation) :
    List Char × List (List Char) :=
  ((perform state.1 operation).1, state.2 ++ [(perform state.1 operation).2])
end

def staysWithin (bound : Nat) (spec : List Char × List (List Char)) :
    List Buffer.Operation → Bool
  | [] => true
  | operation :: operations =>
      decide ((step spec operation).1.length ≤ bound) &&
        staysWithin bound (step spec operation) operations

end ByteQueue

/-! ## The index invariant and the refinement -/

namespace Buffer

structure Valid (b : Buffer) : Prop where
  prepend : kCheapPrepend ≤ b.readIndex
  ordered : b.readIndex ≤ b.writeIndex
  inBounds : b.writeIndex ≤ b.buffer.length

/-- The readable bytes up to which `makeSpace` never asks `resize` for more than `max_size()`:
it grows the vector to less than twice the readable bytes after the call, plus
`kCheapPrepend`. -/
def maxReadable : Nat := (maxSize - kCheapPrepend) / 2

theorem maxReadable_twice : 2 * maxReadable + kCheapPrepend ≤ maxSize := by
  decide

variable {b : Buffer}

theorem length_readable (valid : b.Valid) : b.readable.length = b.readableBytes := by
  have := valid.inBounds
  simp only [readable, readableBytes, List.length_take, List.length_drop]
  omega

theorem create_spec {initialSize : UInt64} (fits : kCheapPrepend + initialSize.toNat ≤ maxSize) :
    ∃ created, create initialSize = some created ∧ created.Valid ∧
      created.buffer.length ≤ maxSize ∧ created.readable = [] := by
  have noWrap : (kCheapPrepend.toUInt64 + initialSize).toNat = kCheapPrepend + initialSize.toNat := by
    rw [UInt64.toNat_add]
    exact Nat.mod_eq_of_lt (Nat.lt_of_le_of_lt fits (by decide))
  refine ⟨⟨List.replicate (kCheapPrepend + initialSize.toNat) '\x00', kCheapPrepend, kCheapPrepend⟩,
    ?_, ⟨Nat.le_refl _, Nat.le_refl _, by simp⟩, by simpa using fits,
    by simp [readable, readableBytes]⟩
  rw [create]
  simp only [noWrap, if_neg (Nat.not_lt.mpr fits)]

/-- At `initialSize = SIZE_MAX` the `size_t` sum `kCheapPrepend + initialSize` wraps to `7`: the
vector is shorter than the indices. -/
theorem create_wraps :
    ∃ created, create 18446744073709551615 = some created ∧ created.buffer.length = 7 ∧
      ¬ created.Valid := by
  refine ⟨_, rfl, rfl, fun valid => ?_⟩
  exact absurd valid.inBounds (by decide)

theorem retrieveAll_valid (valid : b.Valid) : b.retrieveAll.Valid where
  prepend := Nat.le_refl _
  ordered := Nat.le_refl _
  inBounds := by
    have := valid.prepend; have := valid.ordered; have := valid.inBounds
    simp only [retrieveAll]
    omega

theorem readable_retrieveAll : b.retrieveAll.readable = [] := by
  simp [retrieveAll, readable, readableBytes]

theorem retrieve_valid (valid : b.Valid) (len : Nat) : (b.retrieve len).Valid := by
  unfold retrieve
  split
  · rename_i short
    have := valid.prepend; have := valid.ordered; have := valid.inBounds
    exact ⟨by simp only; omega, by simp only [readableBytes] at short ⊢; omega, valid.inBounds⟩
  · exact retrieveAll_valid valid

theorem length_retrieve (len : Nat) : (b.retrieve len).buffer.length = b.buffer.length := by
  unfold retrieve
  split <;> rfl

theorem readable_retrieve (valid : b.Valid) (len : Nat) :
    (b.retrieve len).readable = b.readable.drop len := by
  unfold retrieve
  split
  · rename_i short
    simp only [readable, readableBytes, List.drop_take, List.drop_drop] at short ⊢
    rw [Nat.sub_sub]
  · rename_i long
    rw [readable_retrieveAll, List.drop_eq_nil_of_le]
    rw [length_readable valid]
    omega

theorem copyAt_spec (valid : b.Valid) {data : List Char} (fits : data.length ≤ b.writableBytes) :
    let written : Buffer := { b with
      buffer := CxxVector.overwrite b.buffer b.writeIndex data
      writeIndex := b.writeIndex + data.length }
    CxxVector.copyTo b.buffer b.writeIndex data = some written.buffer ∧ written.Valid ∧
      written.buffer.length = b.buffer.length ∧ written.readable = b.readable ++ data := by
  intro written
  have := valid.prepend; have := valid.ordered; have := valid.inBounds
  have room : b.writeIndex + data.length ≤ b.buffer.length := by
    simp only [writableBytes] at fits
    omega
  have sameLength : written.buffer.length = b.buffer.length := CxxVector.length_overwrite room
  refine ⟨CxxVector.copyTo_of_fits room,
    ⟨valid.prepend, by simp only [written]; omega, by rw [sameLength]; exact room⟩, sameLength, ?_⟩
  have front : ((b.buffer.drop b.readIndex).take (b.writeIndex - b.readIndex) ++ data).length =
      written.writeIndex - written.readIndex := by
    simp only [written, List.length_append, List.length_take, List.length_drop]
    omega
  simp only [readable, readableBytes]
  rw [CxxVector.drop_overwrite_of_le data valid.ordered valid.inBounds, List.take_left' front]

theorem makeSpace_spec (valid : b.Valid) (sized : b.buffer.length ≤ maxSize) {len : Nat}
    (short : b.writableBytes < len) (small : b.readableBytes + len ≤ maxReadable) :
    ∃ spaced, b.makeSpace len = some spaced ∧ spaced.Valid ∧ spaced.buffer.length ≤ maxSize ∧
      spaced.readable = b.readable ∧ len ≤ spaced.writableBytes := by
  have prepend : 8 ≤ b.readIndex := valid.prepend
  have ordered := valid.ordered
  have inBounds := valid.inBounds
  have twice := maxReadable_twice
  simp only [writableBytes] at short
  simp only [readableBytes] at small
  unfold makeSpace
  split
  · -- grow: the vector is resized to end `len` bytes past the write index
    rename_i tight
    simp only [writableBytes, prependableBytes, kCheapPrepend] at tight twice
    have grown := CxxVector.resize_of_le (show b.buffer.length ≤ b.writeIndex + len by omega)
      (show b.writeIndex + len ≤ maxSize by omega) '\x00'
    rw [grown]
    refine ⟨_, rfl, ⟨valid.prepend, valid.ordered, by simp; omega⟩, by simp; omega, ?_,
      by simp [writableBytes]; omega⟩
    have kept : b.writeIndex - b.readIndex ≤ (b.buffer.drop b.readIndex).length := by
      simp only [List.length_drop]
      omega
    simp only [readable, readableBytes, List.drop_append_of_le_length
      (show b.readIndex ≤ b.buffer.length by omega), List.take_append_of_le_length kept]
  · -- compact: the readable bytes move down to `kCheapPrepend`
    rename_i roomy
    simp only [writableBytes, prependableBytes, kCheapPrepend] at roomy
    simp only [readableBytes]
    have moved : ((b.buffer.drop b.readIndex).take (b.writeIndex - b.readIndex)).length =
        b.writeIndex - b.readIndex := by
      simp only [List.length_take, List.length_drop]
      omega
    have fits : kCheapPrepend +
        ((b.buffer.drop b.readIndex).take (b.writeIndex - b.readIndex)).length ≤
          b.buffer.length := by
      rw [moved, kCheapPrepend]
      omega
    have sameLength := CxxVector.length_overwrite fits
    rw [CxxVector.copyTo_of_fits fits]
    refine ⟨_, rfl, ⟨Nat.le_refl _, by simp, ?_⟩, by dsimp only; omega, ?_, ?_⟩
    · rw [sameLength, ← moved]
      exact fits
    · simp only [readable, readableBytes]
      rw [CxxVector.drop_overwrite_of_le _ (Nat.le_refl _) (by simp only [kCheapPrepend]; omega)]
      simp only [Nat.sub_self, List.take_zero, List.nil_append, Nat.add_sub_cancel_left]
      exact List.take_left' moved
    · simp only [writableBytes]
      rw [sameLength, kCheapPrepend]
      omega

theorem append_spec (valid : b.Valid) (sized : b.buffer.length ≤ maxSize) (data : List Char)
    (small : b.readableBytes + data.length ≤ maxReadable) :
    ∃ appended, b.append data = some appended ∧ appended.Valid ∧
      appended.buffer.length ≤ maxSize ∧ appended.readable = b.readable ++ data := by
  unfold append
  by_cases short : data.length > b.writableBytes
  · obtain ⟨spaced, made, spacedValid, spacedSized, spacedReadable, room⟩ :=
      makeSpace_spec valid sized short small
    obtain ⟨copied, writtenValid, sameLength, writtenReadable⟩ := copyAt_spec spacedValid room
    rw [if_pos short, made, Option.bind_some, copied, Option.map_some]
    refine ⟨_, rfl, writtenValid, sameLength ▸ spacedSized, ?_⟩
    rw [writtenReadable, spacedReadable]
  · have fits : data.length ≤ b.writableBytes := by omega
    obtain ⟨copied, writtenValid, sameLength, writtenReadable⟩ := copyAt_spec valid fits
    rw [if_neg short, Option.bind_some, copied, Option.map_some]
    exact ⟨_, rfl, writtenValid, sameLength ▸ sized, writtenReadable⟩

theorem readFd_spec (valid : b.Valid) (sized : b.buffer.length ≤ maxSize) (received : List Char)
    (small : b.readableBytes + received.length ≤ maxReadable) :
    ∃ read, b.readFd received = some read ∧ read.Valid ∧ read.buffer.length ≤ maxSize ∧
      read.readable = b.readable ++ received := by
  unfold readFd
  dsimp only
  split
  · rename_i fits
    obtain ⟨copied, writtenValid, sameLength, writtenReadable⟩ := copyAt_spec valid fits
    rw [copied, Option.map_some]
    exact ⟨_, rfl, writtenValid, sameLength ▸ sized, writtenReadable⟩
  · rename_i overflow
    have tailFits : (received.take b.writableBytes).length ≤ b.writableBytes := by
      simp only [List.length_take]; omega
    obtain ⟨copied, filledValid, sameLength, filledReadable⟩ := copyAt_spec valid tailFits
    have full : b.writeIndex + (received.take b.writableBytes).length = b.buffer.length := by
      have := valid.inBounds
      simp only [List.length_take, writableBytes] at overflow ⊢
      omega
    rw [full] at filledValid filledReadable
    have filledSmall : (b.buffer.length - b.readIndex) + (received.drop b.writableBytes).length ≤
        maxReadable := by
      have := valid.ordered; have := valid.inBounds
      simp only [List.length_drop, writableBytes, readableBytes] at small overflow ⊢
      omega
    obtain ⟨appended, made, appendedValid, appendedSized, appendedReadable⟩ := append_spec
      filledValid (sameLength ▸ sized) (received.drop b.writableBytes) filledSmall
    rw [copied, Option.bind_some]
    refine ⟨appended, made, appendedValid, appendedSized, ?_⟩
    rw [appendedReadable, filledReadable, List.append_assoc, List.take_append_drop]

theorem retrieveAsString_spec (valid : b.Valid) (len : Nat) :
    (b.retrieveAsString len).2.Valid ∧ (b.retrieveAsString len).2.readable = b.readable.drop len ∧
      (b.retrieveAsString len).1 = b.readable.take len := by
  have total := length_readable valid
  refine ⟨retrieve_valid valid _, ?_, ?_⟩
  · simp only [retrieveAsString]
    rw [readable_retrieve valid]
    rcases Nat.le_total len b.readableBytes with short | long
    · rw [Nat.min_eq_left short]
    · rw [Nat.min_eq_right long, List.drop_eq_nil_of_le (by omega),
        List.drop_eq_nil_of_le (by omega)]
  · simp only [retrieveAsString, readable, List.take_take]

theorem perform_refines (valid : b.Valid) (sized : b.buffer.length ≤ maxSize)
    (operation : Operation)
    (small : (ByteQueue.perform b.readable operation).1.length ≤ maxReadable) :
    ∃ performed, b.perform operation = some performed ∧ performed.1.Valid ∧
      performed.1.buffer.length ≤ maxSize ∧
      (performed.1.readable, performed.2) = ByteQueue.perform b.readable operation := by
  have total := length_readable valid
  cases operation with
  | append data =>
      simp only [ByteQueue.perform, List.length_append, total] at small
      obtain ⟨appended, made, appendedValid, appendedSized, appendedReadable⟩ :=
        append_spec valid sized data small
      refine ⟨_, by rw [perform, made, Option.map_some], appendedValid, appendedSized, ?_⟩
      rw [ByteQueue.perform, appendedReadable]
  | retrieve len =>
      exact ⟨_, rfl, retrieve_valid valid len, (length_retrieve len).symm ▸ sized,
        by rw [ByteQueue.perform, readable_retrieve valid]⟩
  | retrieveAll =>
      exact ⟨_, rfl, retrieveAll_valid valid, sized, by rw [ByteQueue.perform, readable_retrieveAll]⟩
  | retrieveAsString len =>
      obtain ⟨retrievedValid, retrievedReadable, returned⟩ := retrieveAsString_spec valid len
      exact ⟨_, rfl, retrievedValid, (length_retrieve _).symm ▸ sized,
        by rw [ByteQueue.perform, retrievedReadable, returned]⟩
  | retrieveAllAsString =>
      obtain ⟨retrievedValid, retrievedReadable, returned⟩ :=
        retrieveAsString_spec valid b.readableBytes
      have whole : b.readable.length ≤ b.readableBytes := Nat.le_of_eq total
      refine ⟨_, rfl, retrievedValid, (length_retrieve _).symm ▸ sized, ?_⟩
      rw [ByteQueue.perform, retrieveAllAsString, retrievedReadable, returned,
        List.drop_eq_nil_of_le whole, List.take_of_length_le whole]
  | readFd received =>
      cases received with
      | none => exact ⟨_, rfl, valid, sized, rfl⟩
      | some received =>
          simp only [ByteQueue.perform, List.length_append, total] at small
          obtain ⟨read, made, readValid, readSized, readReadable⟩ :=
            readFd_spec valid sized received small
          refine ⟨_, by rw [perform, made, Option.map_some], readValid, readSized, ?_⟩
          rw [ByteQueue.perform, readReadable]
  | writeFd accepted =>
      cases accepted with
      | none => exact ⟨_, rfl, valid, sized, rfl⟩
      | some accepted =>
          exact ⟨_, rfl, retrieve_valid valid accepted, (length_retrieve _).symm ▸ sized,
            by rw [ByteQueue.perform, writeFd, readable_retrieve valid]⟩

def Represents (state : Buffer × List (List Char)) (spec : List Char × List (List Char)) : Prop :=
  state.1.Valid ∧ state.1.buffer.length ≤ maxSize ∧ state.1.readable = spec.1 ∧ state.2 = spec.2

theorem step_refines {state : Buffer × List (List Char)} {spec : List Char × List (List Char)}
    (represents : Represents state spec) (operation : Operation)
    (small : (ByteQueue.step spec operation).1.length ≤ maxReadable) :
    ∃ next, step (some state) operation = some next ∧
      Represents next (ByteQueue.step spec operation) := by
  obtain ⟨valid, sized, sameBytes, sameReturns⟩ := represents
  simp only [ByteQueue.step, ← sameBytes] at small ⊢
  obtain ⟨performed, made, performedValid, performedSized, performedSpec⟩ :=
    perform_refines valid sized operation small
  refine ⟨_, by rw [step, Option.bind_some, made, Option.map_some], performedValid,
    performedSized, ?_⟩
  rw [← performedSpec, sameReturns]
  exact ⟨rfl, rfl⟩

theorem run_refines_from : ∀ (operations : List Operation) (state : Buffer × List (List Char))
    (spec : List Char × List (List Char)), Represents state spec →
    ByteQueue.staysWithin maxReadable spec operations = true →
    ∃ final, operations.foldl step (some state) = some final ∧
      Represents final (operations.foldl ByteQueue.step spec) := by
  intro operations
  induction operations with
  | nil => intro state spec represents _; exact ⟨state, rfl, represents⟩
  | cons operation operations ih =>
      intro state spec represents within
      simp only [ByteQueue.staysWithin, Bool.and_eq_true, decide_eq_true_eq] at within
      obtain ⟨next, stepped, nextRepresents⟩ := step_refines represents operation within.1
      rw [List.foldl_cons, stepped, List.foldl_cons]
      exact ih next _ nextRepresents within.2

/-- From a buffer whose vector fits below `max_size()`, every run during which the FIFO never
holds more than `maxReadable` bytes returns from every call, keeps the index invariant, and has
the FIFO's bytes and returns. -/
theorem run_refines (initialSize : UInt64) (operations : List Operation)
    (fits : kCheapPrepend + initialSize.toNat ≤ maxSize)
    (small : ByteQueue.staysWithin maxReadable ([], []) operations = true) :
    ∃ final, operations.foldl step ((create initialSize).map fun b => (b, [])) = some final ∧
      final.1.Valid ∧ final.1.readable = (operations.foldl ByteQueue.step ([], [])).1 ∧
      final.2 = (operations.foldl ByteQueue.step ([], [])).2 := by
  obtain ⟨created, made, createdValid, createdSized, createdReadable⟩ := create_spec fits
  obtain ⟨final, ran, finalValid, -, finalBytes, finalReturns⟩ :=
    run_refines_from operations (created, []) ([], [])
      ⟨createdValid, createdSized, createdReadable, rfl⟩ small
  rw [made, Option.map_some]
  exact ⟨final, ran, finalValid, finalBytes, finalReturns⟩

/-- A buffer of 4 bytes that grows for `hello` and compacts for `xyz`. -/
theorem run_refines_grow :
    (kCheapPrepend + (4 : UInt64).toNat ≤ maxSize ∧
      ByteQueue.staysWithin maxReadable ([], [])
        [.append "hello".toList, .retrieveAsString 4, .append "xyz".toList,
          .readFd (some "ab".toList), .retrieveAllAsString] = true) ∧
    ∃ final, [Operation.append "hello".toList, .retrieveAsString 4, .append "xyz".toList,
          .readFd (some "ab".toList), .retrieveAllAsString].foldl step
        ((create 4).map fun b => (b, [])) = some final ∧
      final.1.Valid ∧ final.1.readable = ([Operation.append "hello".toList, .retrieveAsString 4,
          .append "xyz".toList, .readFd (some "ab".toList), .retrieveAllAsString].foldl
            ByteQueue.step ([], [])).1 ∧
      final.2 = ([Operation.append "hello".toList, .retrieveAsString 4, .append "xyz".toList,
          .readFd (some "ab".toList), .retrieveAllAsString].foldl ByteQueue.step ([], [])).2 :=
  ⟨⟨by decide, by decide⟩, run_refines 4 _ (by decide) (by decide)⟩

end Buffer

end HighSpeed
