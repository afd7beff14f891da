import ChipEight.Proofs.Memory.Access

namespace ChipEight.Memory

inductive Operation
  | read (address : Nat)
  | word (address : Nat)
  | slice (address len : Nat)
  | write (address : Nat) (value : UInt8)
  | fill (address len : Nat) (value : UInt8)
  | writeAll (address : Nat) (bytes : List UInt8)
  | load (source : ByteSource) (offset : Nat)

inductive Answer
  | byte (value : UInt8)
  | word (word : Word)
  | bytes (bytes : List UInt8)
  | done
  | count (n : Nat)

/-- The answer beside the memory that an operation leaves behind: `m` itself after a failure. -/
def settle (m : Memory) : Except Fault (Answer × Memory) → Except Fault Answer × Memory
  | .ok (answer, m') => (.ok answer, m')
  | .error fault => (.error fault, m)

def operate (m : Memory) : Operation → Except Fault Answer × Memory
  | .read address => ((m.read address).map .byte, m)
  | .word address => ((m.word address).map .word, m)
  | .slice address len => ((m.slice address len).map .bytes, m)
  | .write address value => m.settle ((m.write address value).map (.done, ·))
  | .fill address len value => m.settle ((m.fill address len value).map (.done, ·))
  | .writeAll address bytes => m.settle ((m.writeAll address bytes).map (.done, ·))
  | .load source offset =>
    m.settle ((m.load source offset).map fun (n, m') => (.count n, m'))

def perform (m : Memory) (operations : List Operation) : Memory :=
  operations.foldl (fun m operation => (m.operate operation).2) m

namespace Operation

def start : Operation → Nat
  | .read address => address
  | .word address => address
  | .slice address _ => address
  | .write address _ => address
  | .fill address _ _ => address
  | .writeAll address _ => address
  | .load _ offset => offset

/-- The bytes that the operation is to put into memory, from its start on. -/
def payload : Operation → List UInt8
  | .write _ value => [value]
  | .fill _ len value => .replicate len value
  | .writeAll _ bytes => bytes
  | .load source _ => source.bytes
  | _ => []

def len : Operation → Nat
  | .read _ => 1
  | .word _ => 2
  | .slice _ len => len
  | operation => operation.payload.length

def failure? : Operation → Option IoError
  | .load source _ => source.failure
  | _ => none

/-- The operation succeeds on `size` bytes of memory. -/
def Accepted (size : Nat) (operation : Operation) : Prop :=
  operation.failure? = none ∧ operation.start + operation.len ≤ size

/-- The operation fails on `size` bytes of memory, with this fault. A source that fails is told
whether or not its bytes would have fitted. -/
inductive Refused (size : Nat) (operation : Operation) : Fault → Prop
  | source {error : IoError} (hfailure : operation.failure? = some error) :
      Refused size operation (.io error)
  | range (hsource : operation.failure? = none) (hover : size < operation.start + operation.len) :
      Refused size operation (.outOfBounds operation.start operation.len size)

/-- The operation succeeds on `size` bytes of memory and puts `value` at `address`. -/
def Puts (size : Nat) (operation : Operation) (address : Nat) (value : UInt8) : Prop :=
  operation.Accepted size ∧
    ∃ k, operation.payload[k]? = some value ∧ address = operation.start + k

/-- The operation answers so if `Holds address value` says where in memory which byte stands. -/
def Answers (Holds : Nat → UInt8 → Prop) : Operation → Answer → Prop
  | .read address, .byte value => Holds address value
  | .word address, .word w =>
    ∃ high low, Holds address high ∧ Holds (address + 1) low ∧
      w.bits.toNat = 256 * high.toNat + low.toNat
  | .slice address len, .bytes bytes =>
    bytes.length = len ∧ ∀ k value, bytes[k]? = some value → Holds (address + k) value
  | .write _ _, .done => True
  | .fill _ _ _, .done => True
  | .writeAll _ _, .done => True
  | .load source _, .count n => n = source.bytes.length
  | _, _ => False

variable {size address : Nat} {value : UInt8} {operation : Operation}

theorem Accepted.not_refused (h : operation.Accepted size) {fault : Fault} :
    ¬ operation.Refused size fault := by
  rintro (hfailure | ⟨_, hover⟩)
  · cases h.1.symm.trans hfailure
  · exact Nat.not_le.2 hover h.2

theorem exists_refused_of_not_accepted (h : ¬ operation.Accepted size) :
    ∃ fault, operation.Refused size fault := by
  cases hfailure : operation.failure? with
  | some error => exact ⟨_, .source hfailure⟩
  | none => exact ⟨_, .range hfailure (Nat.lt_of_not_le fun hle => h ⟨hfailure, hle⟩)⟩

theorem Answers.imp {P Q : Nat → UInt8 → Prop} {answer : Answer} (h : operation.Answers P answer)
    (himp : ∀ address value, P address value → Q address value) : operation.Answers Q answer := by
  cases operation <;> cases answer <;> try exact h
  case read.byte address value => exact himp _ _ h
  case word.word address w =>
    obtain ⟨high, low, hhigh, hlow, hw⟩ := h
    exact ⟨high, low, himp _ _ hhigh, himp _ _ hlow, hw⟩
  case slice.bytes address len bytes =>
    exact ⟨h.1, fun k value hk => himp _ _ (h.2 k value hk)⟩

theorem length_payload_le (operation : Operation) : operation.payload.length ≤ operation.len := by
  cases operation <;> first | exact Nat.zero_le _ | exact Nat.le_refl _

end Operation

def Untouched (size address : Nat) (operations : List Operation) : Prop :=
  ∀ operation ∈ operations, ∀ value, ¬ operation.Puts size address value

/-- One of the operations on `size` bytes of memory puts `value` at `address`, and none after it puts
a byte there. -/
inductive PutLast (size address : Nat) (value : UInt8) : List Operation → Prop
  | here {operation : Operation} {later : List Operation}
      (hputs : operation.Puts size address value) (hlater : Untouched size address later) :
      PutLast size address value (operation :: later)
  | later {operation : Operation} {later : List Operation} (h : PutLast size address value later) :
      PutLast size address value (operation :: later)

/-- What the operations, on `size` bytes that are zero, leave at `address`. -/
def Stands (size : Nat) (operations : List Operation) (address : Nat) (value : UInt8) : Prop :=
  PutLast size address value operations ∨ value = 0 ∧ Untouched size address operations

section Step

variable {m m' : Memory} {operation : Operation} {address len : Nat} {value : UInt8} {fault : Fault}

theorem exists_ok_of_fits {α : Type} {result : Except Fault α}
    (herror : ∀ fault, result = .error fault → m.size < address + len) (h : m.Fits address len) :
    ∃ a, result = .ok a := by
  cases result with
  | error fault => exact absurd h (not_fits_iff.2 (herror fault rfl))
  | ok a => exact ⟨a, rfl⟩

theorem look_of_error {α : Type} {result : Except Fault α} (h : result = .error fault)
    (answer : α → Answer) : (result.map answer, m) = (.error fault, m) := by
  rw [h]
  rfl

theorem look_of_ok {α : Type} {result : Except Fault α} {a : α} (h : result = .ok a)
    (answer : α → Answer) : (result.map answer, m) = (.ok (answer a), m) := by
  rw [h]
  rfl

theorem settle_of_error {result : Except Fault Memory} (h : result = .error fault)
    (answer : Answer) : m.settle (result.map (answer, ·)) = (.error fault, m) := by
  rw [h]
  rfl

theorem settle_of_ok {result : Except Fault Memory} (h : result = .ok m') (answer : Answer) :
    m.settle (result.map (answer, ·)) = (.ok answer, m') := by
  rw [h]
  rfl

theorem operate_fill (m : Memory) (address len : Nat) (value : UInt8) :
    m.operate (.fill address len value) = m.operate (.writeAll address (.replicate len value)) := by
  rw [operate, fill_eq_writeAll, operate]

theorem operate_load {source : ByteSource} (h : source.failure = none) (offset : Nat) :
    m.operate (.load source offset) =
      m.settle ((m.writeAll offset source.bytes).map (.count source.bytes.length, ·)) := by
  rw [operate, load_of_drain (ByteSource.drain_of_no_failure h)]
  cases m.writeAll offset source.bytes with
  | error fault => rfl
  | ok m' => rfl

theorem operate_of_refused (h : operation.Refused m.size fault) :
    m.operate operation = (.error fault, m) := by
  cases h with
  | source hfailure =>
    cases operation with
    | load source offset =>
      rw [operate, load_of_drain_error (ByteSource.drain_of_failure hfailure)]
      rfl
    | _ => cases hfailure
  | range hsource hover =>
    cases operation with
    | read address => exact look_of_error (read_eq_error_iff.2 ⟨hover, rfl⟩) .byte
    | word address => exact look_of_error (word_eq_error_iff.2 ⟨hover, rfl⟩) .word
    | slice address len => exact look_of_error (slice_eq_error_iff.2 ⟨hover, rfl⟩) .bytes
    | write address value => exact settle_of_error (writeAll_eq_error_iff.2 ⟨hover, rfl⟩) .done
    | fill address len value =>
      rw [operate_fill]
      exact settle_of_error (writeAll_eq_error_iff.2 ⟨hover, rfl⟩) .done
    | writeAll address bytes => exact settle_of_error (writeAll_eq_error_iff.2 ⟨hover, rfl⟩) .done
    | load source offset =>
      rw [operate_load hsource]
      exact settle_of_error (writeAll_eq_error_iff.2 ⟨hover, rfl⟩) _

/-- An operation that is accepted answers from memory and writes its payload. One that only reads
has none, and writing no bytes changes nothing. -/
theorem operate_of_accepted (h : operation.Accepted m.size) :
    ∃ answer m', m.operate operation = (.ok answer, m') ∧
      operation.Answers (fun address value => m.byte? address = some value) answer ∧
      m.writeAll operation.start operation.payload = .ok m' := by
  obtain ⟨hsource, hfits⟩ := h
  have hpayload : m.Fits operation.start operation.payload.length :=
    fits_iff.2 (Nat.le_trans (Nat.add_le_add_left operation.length_payload_le _) hfits)
  have hwrite := writeAll_eq_ok_iff.2 ⟨hpayload, rfl⟩
  have hfits := fits_iff.2 hfits
  cases operation with
  | read address =>
    obtain ⟨value, hread⟩ := exists_ok_of_fits (fun _ he => (read_eq_error_iff.1 he).1) hfits
    exact ⟨.byte value, m, look_of_ok hread .byte, read_eq_ok_iff.1 hread, hwrite⟩
  | word address =>
    obtain ⟨w, hword⟩ := exists_ok_of_fits (fun _ he => (word_eq_error_iff.1 he).1) hfits
    exact ⟨.word w, m, look_of_ok hword .word, word_eq_ok_iff.1 hword, hwrite⟩
  | slice address len =>
    obtain ⟨bytes, hslice⟩ := exists_ok_of_fits (fun _ he => (slice_eq_error_iff.1 he).1) hfits
    have hlength := length_of_slice hslice
    refine ⟨.bytes bytes, m, look_of_ok hslice .bytes, ⟨hlength, fun k value hk => ?_⟩, hwrite⟩
    obtain ⟨hlt, _⟩ := List.getElem?_eq_some_iff.1 hk
    exact (getElem?_of_slice hslice (hlength ▸ hlt)).symm.trans hk
  | write address value => exact ⟨.done, _, settle_of_ok hwrite .done, trivial, hwrite⟩
  | fill address len value =>
    rw [operate_fill]
    exact ⟨.done, _, settle_of_ok hwrite .done, trivial, hwrite⟩
  | writeAll address bytes => exact ⟨.done, _, settle_of_ok hwrite .done, trivial, hwrite⟩
  | load source offset =>
    rw [operate_load hsource]
    exact ⟨.count _, _, settle_of_ok hwrite _, rfl, hwrite⟩

theorem operate_cases (m : Memory) (operation : Operation) :
    (∃ fault, operation.Refused m.size fault ∧ m.operate operation = (.error fault, m)) ∨
    ∃ answer m', operation.Accepted m.size ∧ m.operate operation = (.ok answer, m') ∧
      operation.Answers (fun address value => m.byte? address = some value) answer ∧
      m.writeAll operation.start operation.payload = .ok m' := by
  by_cases h : operation.Accepted m.size
  · obtain ⟨answer, m', hall⟩ := operate_of_accepted h
    exact .inr ⟨answer, m', h, hall⟩
  · obtain ⟨fault, hrefused⟩ := Operation.exists_refused_of_not_accepted h
    exact .inl ⟨fault, hrefused, operate_of_refused hrefused⟩

theorem exists_operate_eq_ok_iff :
    (∃ answer, (m.operate operation).1 = .ok answer) ↔ operation.Accepted m.size := by
  obtain ⟨fault, hrefused, he⟩ | ⟨answer, m', haccepted, he, _⟩ := m.operate_cases operation
  · rw [he]
    exact ⟨nofun, fun h => absurd hrefused h.not_refused⟩
  · rw [he]
    exact ⟨fun _ => haccepted, fun _ => ⟨answer, rfl⟩⟩

theorem operate_eq_error_iff :
    (m.operate operation).1 = .error fault ↔ operation.Refused m.size fault := by
  constructor
  · intro h
    obtain ⟨reason, hrefused, he⟩ | ⟨answer, m', _, he, _⟩ := m.operate_cases operation
    · rw [he] at h
      cases h
      exact hrefused
    · rw [he] at h
      cases h
  · intro h
    rw [operate_of_refused h]

theorem size_operate (m : Memory) (operation : Operation) :
    (m.operate operation).2.size = m.size := by
  obtain ⟨fault, _, h⟩ | ⟨answer, m', _, h, _, hwrite⟩ := m.operate_cases operation
  · rw [h]
  · rw [h]
    exact size_of_writeAll hwrite

theorem byte?_operate (h : (m.operate operation).2.byte? address = some value) :
    operation.Puts m.size address value ∨
      m.byte? address = some value ∧ ∀ value, ¬ operation.Puts m.size address value := by
  obtain ⟨fault, hrefused, he⟩ | ⟨answer, m', haccepted, he, _, hwrite⟩ :=
    m.operate_cases operation
  · rw [he] at h
    exact .inr ⟨h, fun value hputs => hputs.1.not_refused hrefused⟩
  · rw [he, byte?_of_writeAll hwrite] at h
    split at h
    next hin => exact .inl ⟨haccepted, _, h, (Nat.add_sub_cancel' hin.1).symm⟩
    next hout =>
      refine .inr ⟨h, ?_⟩
      rintro other ⟨_, k, hk, rfl⟩
      obtain ⟨hlt, _⟩ := List.getElem?_eq_some_iff.1 hk
      exact hout ⟨Nat.le_add_right _ _, Nat.add_lt_add_left hlt _⟩

end Step

section Run

variable {address : Nat} {value : UInt8}

theorem size_perform (m : Memory) (history : List Operation) :
    (m.perform history).size = m.size := by
  induction history generalizing m with
  | nil => rfl
  | cons operation history ih => exact (ih _).trans (m.size_operate operation)

/-- A byte of memory is the one that the operations put there last, or was there before them. -/
theorem byte?_perform (m : Memory) (history : List Operation)
    (h : (m.perform history).byte? address = some value) :
    PutLast m.size address value history ∨
      m.byte? address = some value ∧ Untouched m.size address history := by
  induction history generalizing m with
  | nil => exact .inr ⟨h, nofun⟩
  | cons operation history ih =>
    have hlater := ih (m.operate operation).2 h
    rw [size_operate] at hlater
    obtain hlast | ⟨hbyte, huntouched⟩ := hlater
    · exact .inl (.later hlast)
    · obtain hputs | ⟨hbefore, hnot⟩ := byte?_operate hbyte
      · exact .inl (.here hputs huntouched)
      · exact .inr ⟨hbefore, List.forall_mem_cons.2 ⟨hnot, huntouched⟩⟩

theorem stands_of_byte? {size : UInt64} {history : List Operation}
    (h : ((zeroed size).perform history).byte? address = some value) :
    Stands size.toNat history address value := by
  have hbyte := byte?_perform _ history h
  rw [size_zeroed] at hbyte
  obtain hlast | ⟨hzero, huntouched⟩ := hbyte
  · exact .inl hlast
  · exact .inr ⟨byte?_zeroed hzero, huntouched⟩

/-- An operation at the end of any history on memory of any size. Memory has kept its size. The
operation succeeds exactly if its source does not fail and its range ends within memory, the sum of
address and length taken as it is; else it fails with the source's own failure or, if that does not
fail, with the range and the size of memory, and leaves memory as it was. If it succeeds, it answers
with the bytes that stand in memory, and puts its payload where it starts and nothing elsewhere. -/
theorem operate_exact (size : UInt64) (history : List Operation) (operation : Operation) :
    let m := (zeroed size).perform history
    let result := m.operate operation
    m.size = size.toNat ∧ result.2.size = size.toNat ∧
    ((∃ answer, result.1 = .ok answer) ↔ operation.Accepted size.toNat) ∧
    (∀ fault, result.1 = .error fault ↔ operation.Refused size.toNat fault) ∧
    (∀ fault, result.1 = .error fault → result.2 = m) ∧
    ∀ answer, result.1 = .ok answer →
      operation.Answers (Stands size.toNat history) answer ∧
      ∀ address, result.2.byte? address =
        if operation.start ≤ address ∧ address < operation.start + operation.payload.length then
          operation.payload[address - operation.start]?
        else m.byte? address := by
  intro m result
  have hsize : m.size = size.toNat := (size_perform _ history).trans (size_zeroed size)
  rw [← hsize]
  refine ⟨rfl, m.size_operate operation, exists_operate_eq_ok_iff, fun _ => operate_eq_error_iff,
    ?_, ?_⟩
  · intro fault h
    exact congrArg Prod.snd (operate_of_refused (operate_eq_error_iff.1 h))
  · intro answer h
    obtain ⟨answer', m', he, hanswers, hwrite⟩ :=
      operate_of_accepted (exists_operate_eq_ok_iff.1 ⟨answer, h⟩)
    have hresult : result = (.ok answer', m') := he
    rw [hresult] at h ⊢
    cases h
    rw [hsize]
    exact ⟨hanswers.imp fun _ _ => stands_of_byte?, byte?_of_writeAll hwrite⟩

/-- The source's failure is told, although what it yielded would not have fitted. -/
example : (zeroed 2).operate (.load ⟨[1, 2, 3], some (.malformed "gone")⟩ 1) =
    (.error (.io (.malformed "gone")), zeroed 2) := rfl

end Run

end ChipEight.Memory
