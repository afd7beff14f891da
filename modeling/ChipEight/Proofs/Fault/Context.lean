import Mathlib.Data.List.Chain
import ChipEight.Fault
import ChipEight.Proofs.Instruction.Fields

namespace ChipEight

namespace Fault

/-- An instruction that passed a fault on: its word, and the address that it was fetched from. -/
structure Context where
  pc : UInt16
  word : Word
  deriving DecidableEq

/-- The fault as instructions passed it on, the first of the list outermost. -/
def within (contexts : List Context) (fault : Fault) : Fault :=
  contexts.foldr (fun context source => .instruction context.pc context.word source) fault

/-- No instruction has passed the fault on. -/
def Bare (fault : Fault) : Prop :=
  ∀ pc word source, fault ≠ .instruction pc word source

def contexts : Fault → List Context
  | .instruction pc word source => ⟨pc, word⟩ :: source.contexts
  | _ => []

section Nesting

variable {fault cause : Fault}

theorem bare_root (fault : Fault) : fault.root.Bare := by
  induction fault with
  | instruction pc word source ih => exact ih
  | _ => nofun

theorem root_of_bare (h : fault.Bare) : fault.root = fault := by
  cases fault with
  | instruction pc word source => exact absurd rfl (h pc word source)
  | _ => rfl

theorem contexts_of_bare (h : fault.Bare) : fault.contexts = [] := by
  cases fault with
  | instruction pc word source => exact absurd rfl (h pc word source)
  | _ => rfl

theorem root_root (fault : Fault) : fault.root.root = fault.root :=
  root_of_bare fault.bare_root

theorem within_root (fault : Fault) : fault.root.within fault.contexts = fault := by
  induction fault with
  | instruction pc word source ih => exact congrArg (Fault.instruction pc word) ih
  | _ => rfl

theorem root_within (contexts : List Context) (fault : Fault) :
    (fault.within contexts).root = fault.root := by
  induction contexts with
  | nil => rfl
  | cons context contexts ih => exact ih

theorem contexts_within (contexts : List Context) (fault : Fault) :
    (fault.within contexts).contexts = contexts ++ fault.contexts := by
  induction contexts with
  | nil => rfl
  | cons context contexts ih => exact congrArg (context :: ·) ih

theorem within_eq_iff {contexts : List Context} :
    cause.Bare ∧ cause.within contexts = fault ↔
      contexts = fault.contexts ∧ cause = fault.root := by
  constructor
  · rintro ⟨hbare, rfl⟩
    rw [contexts_within, root_within, contexts_of_bare hbare, root_of_bare hbare]
    exact ⟨(List.append_nil contexts).symm, rfl⟩
  · rintro ⟨rfl, rfl⟩
    exact ⟨fault.bare_root, fault.within_root⟩

end Nesting

theorem message_instruction (pc : UInt16) (word : Word) (source : Fault) :
    (Fault.instruction pc word source).message =
      word.text ++ " at " ++ Numeral.address 3 pc.toNat ++ ": " ++ source.message :=
  rfl

theorem message_io (error : IoError) :
    (Fault.io error).message = "i/o error: " ++ error.message :=
  rfl

/-- What can lie below a fault: another fault, an error from outside the machine, or what that error
names as its source. -/
inductive Cause
  | machine (fault : Fault)
  | outside (error : IoError)
  | foreign (error : ForeignError)
  deriving DecidableEq

namespace Cause

def message : Cause → String
  | .machine fault => fault.message
  | .outside error => error.message
  | .foreign error => error.message

def source? : Cause → Option Cause
  | .machine (.instruction _ _ source) => some (.machine source)
  | .machine (.io error) => some (.outside error)
  | .machine _ => none
  | .outside error => error.source?.map .foreign
  | .foreign error => error.source?.map .foreign

/-- From the cause, one source after the other, the list goes down to where there is none. -/
inductive Descends : Cause → List Cause → Prop
  | bottom {cause : Cause} : cause.source? = none → Descends cause [cause]
  | next {cause source : Cause} {causes : List Cause} : cause.source? = some source →
      Descends source causes → Descends cause (cause :: causes)

theorem Descends.unique {cause : Cause} {causes others : List Cause} (h : Descends cause causes)
    (h' : Descends cause others) : causes = others := by
  induction h generalizing others with
  | bottom hnone =>
    cases h' with
    | bottom => rfl
    | next hsome => rw [hnone] at hsome; cases hsome
  | next hsome _ ih =>
    cases h' with
    | bottom hnone => rw [hnone] at hsome; cases hsome
    | next hsome' hrest =>
      rw [hsome] at hsome'
      cases hsome'
      rw [ih hrest]

theorem Descends.isChain {r : Cause → Cause → Prop} {cause : Cause} {causes : List Cause}
    (h : Descends cause causes) (hr : ∀ {cause source : Cause}, cause.source? = some source →
      r cause source) : causes.IsChain r := by
  induction h with
  | bottom => exact .singleton _
  | next hsome hrest ih =>
    cases hrest with
    | bottom => exact .cons_cons (hr hsome) ih
    | next => exact .cons_cons (hr hsome) ih

theorem descends_foreign (error : ForeignError) :
    (Cause.foreign error).Descends (.foreign error :: error.sources.map .foreign) := by
  induction error with
  | plain => exact .bottom rfl
  | caused text report source ih => exact .next rfl ih

theorem descends_outside (error : IoError) :
    (Cause.outside error).Descends (.outside error :: error.sources.map .foreign) := by
  cases error with
  | system => exact .bottom rfl
  | malformed => exact .bottom rfl
  | custom kind payload =>
    cases payload with
    | plain => exact .bottom rfl
    | caused text report source => exact .next rfl (descends_foreign source)

theorem message_suffix {fault : Fault} {source : Cause}
    (h : (Cause.machine fault).source? = some source) :
    source.message.toList <:+ fault.message.toList := by
  cases fault with
  | instruction pc word source =>
    cases h
    rw [message, message_instruction, String.toList_append]
    exact List.suffix_append _ _
  | io error =>
    cases h
    rw [message, message_io, String.toList_append]
    exact List.suffix_append _ _
  | _ => cases h

end Cause

def causes : Fault → List Cause
  | .instruction pc word source => .machine (.instruction pc word source) :: source.causes
  | .io error => .machine (.io error) :: .outside error :: error.sources.map .foreign
  | fault => [.machine fault]

theorem descends_causes (fault : Fault) : (Cause.machine fault).Descends fault.causes := by
  induction fault with
  | instruction pc word source ih => exact .next rfl ih
  | io error => exact .next rfl (Cause.descends_outside error)
  | _ => exact .bottom rfl

theorem descends_iff {fault : Fault} {causes : List Cause} :
    (Cause.machine fault).Descends causes ↔ causes = fault.causes := by
  constructor
  · intro h
    exact h.unique fault.descends_causes
  · rintro rfl
    exact fault.descends_causes

theorem map_message_causes (fault : Fault) : fault.causes.map Cause.message = fault.chain := by
  induction fault with
  | instruction pc word source ih => simp only [causes, chain, List.map_cons, ih, Cause.message]
  | io error =>
    simp only [causes, chain, List.map_cons, List.map_map, Cause.message]
    rfl
  | _ => simp only [causes, chain, List.map_cons, List.map_nil, Cause.message]

theorem root_of_mem_causes {fault inner : Fault} (h : .machine inner ∈ fault.causes) :
    inner.root = fault.root := by
  induction fault with
  | instruction pc word source ih =>
    rcases List.mem_cons.1 h with heq | hmem
    · cases heq
      rfl
    · exact ih hmem
  | io error =>
    obtain rfl : inner = .io error := by simpa [causes] using h
    rfl
  | _ =>
    cases List.mem_singleton.1 h
    rfl

theorem root_mem_causes (fault : Fault) : .machine fault.root ∈ fault.causes := by
  induction fault with
  | instruction pc word source ih => exact List.mem_cons_of_mem _ ih
  | _ => exact List.mem_cons_self

theorem mem_causes_and_bare_iff {fault inner : Fault} :
    .machine inner ∈ fault.causes ∧ inner.Bare ↔ inner = fault.root := by
  constructor
  · rintro ⟨hmem, hbare⟩
    rw [← root_of_mem_causes hmem, root_of_bare hbare]
  · rintro rfl
    exact ⟨fault.root_mem_causes, fault.bare_root⟩

theorem drop_causes (fault : Fault) : fault.causes.drop fault.contexts.length = fault.root.causes := by
  induction fault with
  | instruction pc word source ih => exact ih
  | _ => rfl

theorem length_causes (fault : Fault) :
    fault.causes.length = fault.contexts.length + fault.root.causes.length := by
  induction fault with
  | instruction pc word source ih =>
    simp only [causes, contexts, root, List.length_cons, ih]
    omega
  | _ => exact (Nat.zero_add _).symm

theorem causes_of_bare {fault : Fault} (h : fault.Bare) (hio : ∀ error, fault ≠ .io error) :
    fault.causes = [.machine fault] := by
  cases fault with
  | instruction pc word source => exact absurd rfl (h pc word source)
  | io error => exact absurd rfl (hio error)
  | _ => rfl

theorem causes_of_io {fault : Fault} {error : IoError} (h : fault.root = .io error) :
    fault.causes.length = fault.contexts.length + 2 + error.sources.length ∧
      fault.causes.drop fault.contexts.length =
        .machine fault.root :: .outside error :: error.sources.map .foreign := by
  constructor
  · rw [length_causes, h]
    simp only [causes, List.length_cons, List.length_map]
    omega
  · rw [drop_causes, h]
    rfl

theorem causes_of_ne_io {fault : Fault} (h : ∀ error, fault.root ≠ .io error) :
    fault.causes.length = fault.contexts.length + 1 ∧
      fault.causes.drop fault.contexts.length = [.machine fault.root] := by
  have hroot := causes_of_bare fault.bare_root h
  constructor
  · rw [length_causes, hroot, List.length_singleton]
  · rw [drop_causes, hroot]

theorem outside_mem_causes_iff {fault : Fault} {error : IoError} :
    .outside error ∈ fault.causes ↔ fault.root = .io error := by
  induction fault with
  | instruction pc word source ih => simp [causes, root, ih]
  | io error' => simp [causes, root, eq_comm]
  | _ => simp [causes, root]

theorem root_message_suffix (fault : Fault) :
    fault.root.message.toList <:+ fault.message.toList := by
  induction fault with
  | instruction pc word source ih =>
    rw [root, message_instruction, String.toList_append]
    exact ih.trans (List.suffix_append _ _)
  | _ => simp only [root, List.suffix_refl]

/-- The message is the source's with the instruction in front of it: the word as four digits, and
the address behind a mark as three or four. -/
def Context.Announces (context : Context) (message source : String) : Prop :=
  message = context.word.text ++ " at " ++ Numeral.address 3 context.pc.toNat ++ ": " ++ source ∧
    context.word.text.length = 4 ∧
    Numeral.Denotes 16 context.word.text.toList context.word.bits.toNat ∧
    ∃ digits, (Numeral.address 3 context.pc.toNat).toList = '0' :: 'x' :: digits ∧
      3 ≤ digits.length ∧ digits.length ≤ 4 ∧ Numeral.Denotes 16 digits context.pc.toNat

theorem announces_message (pc : UInt16) (word : Word) (source : Fault) :
    Context.Announces ⟨pc, word⟩ (Fault.instruction pc word source).message source.message := by
  refine ⟨message_instruction pc word source, word.length_text, word.denotes_text,
    Numeral.padded 16 3 pc.toNat, Numeral.toList_address 3 pc.toNat,
    Numeral.le_length_padded 16 3 pc.toNat, ?_, ?_⟩
  · exact Numeral.length_padded_le (by decide) pc.toNat_lt (by decide)
  · exact Numeral.denotes_padded (by decide) (by decide) 3 pc.toNat

/-- However often a fault was passed on, its root is the one fault at the bottom that no instruction
stands around, and there is one list of instructions around it. From the fault down there is one
cause for each of these instructions, then the root, and, if the root reports an error from outside,
that error and the errors that it has as sources. All the faults among them have the same root. The
message of an instruction is its word, its address and the message of its source; the message of
every fault ends with that of what lies right below it, and the whole with that of the root. -/
theorem contexts_nest (fault : Fault) :
    (∀ contexts cause, cause.Bare ∧ cause.within contexts = fault ↔
      contexts = fault.contexts ∧ cause = fault.root) ∧
    fault.root.root = fault.root ∧
    ∃ causes : List Cause,
      (∀ others, (Cause.machine fault).Descends others ↔ others = causes) ∧
      causes.map Cause.message = fault.chain ∧
      (∀ inner, .machine inner ∈ causes → inner.root = fault.root) ∧
      (∀ inner, .machine inner ∈ causes ∧ inner.Bare ↔ inner = fault.root) ∧
      (∀ error, .outside error ∈ causes ↔ fault.root = .io error) ∧
      (∀ error, fault.root = .io error →
        causes.length = fault.contexts.length + 2 + error.sources.length ∧
          causes.drop fault.contexts.length =
            .machine fault.root :: .outside error :: error.sources.map .foreign) ∧
      ((∀ error, fault.root ≠ .io error) →
        causes.length = fault.contexts.length + 1 ∧
          causes.drop fault.contexts.length = [.machine fault.root]) ∧
      causes.IsChain (fun outer inner => ∀ passed, outer = .machine passed →
        inner.message.toList <:+ passed.message.toList) ∧
      (∀ pc word source, .machine (.instruction pc word source) ∈ causes →
        Context.Announces ⟨pc, word⟩ (Fault.instruction pc word source).message
          source.message) ∧
      fault.root.message.toList <:+ fault.message.toList := by
  refine ⟨fun _ _ => within_eq_iff, fault.root_root, fault.causes, fun _ => descends_iff,
    fault.map_message_causes, fun _ => root_of_mem_causes, fun _ => mem_causes_and_bare_iff,
    fun _ => outside_mem_causes_iff, fun _ => causes_of_io, causes_of_ne_io, ?_, ?_,
    fault.root_message_suffix⟩
  · apply fault.descends_causes.isChain
    rintro _ source hsource passed rfl
    exact Cause.message_suffix hsource
  · intro pc word source _
    exact announces_message pc word source

example :
    (within [⟨0x2A4, ⟨0xF30A⟩⟩, ⟨0x1FFE, ⟨0x2204⟩⟩]
        (.io (.device .unexpectedEof "key script exhausted"))).chain =
      ["F30A at 0x2A4: 2204 at 0x1FFE: i/o error: key script exhausted",
        "2204 at 0x1FFE: i/o error: key script exhausted", "i/o error: key script exhausted",
        "key script exhausted"] := by
  decide +kernel

end Fault

def IoError.asForeign (error : IoError) : ForeignError :=
  match error.source? with
  | none => .plain error.message error.report
  | some source => .caused error.message error.report source

theorem IoError.sources_asForeign (error : IoError) : error.asForeign.sources = error.sources := by
  cases error with
  | custom kind payload => cases payload <;> rfl
  | _ => rfl

theorem IoError.message_asForeign (error : IoError) : error.asForeign.message = error.message := by
  unfold IoError.asForeign
  cases error.source? <;> rfl

namespace Fault

/-- The fault as an error that a device can fail with. -/
def asForeign : Fault → ForeignError
  | .instruction pc word source =>
    .caused (Fault.instruction pc word source).message (Fault.instruction pc word source).report
      source.asForeign
  | .io error => .caused (Fault.io error).message (Fault.io error).report error.asForeign
  | fault => .plain fault.message fault.report

theorem message_asForeign (fault : Fault) : fault.asForeign.message = fault.message := by
  cases fault <;> rfl

theorem chain_io (error : IoError) :
    (Fault.io error).chain =
      (Fault.io error).message :: error.message :: error.sources.map ForeignError.message :=
  rfl

theorem chain_asForeign (fault : Fault) :
    fault.asForeign.message :: fault.asForeign.sources.map ForeignError.message = fault.chain := by
  induction fault with
  | instruction pc word source ih =>
    exact congrArg ((Fault.instruction pc word source).message :: ·) ih
  | io error =>
    rw [chain_io, ← error.message_asForeign, ← error.sources_asForeign]
    rfl
  | _ => rfl

/-- Where a device of one machine fails with the fault of another machine, the causes go on below the
error from outside with those of the other machine. -/
theorem chain_relayed (kind : IoKind) (fault : Fault) :
    (Fault.io (.custom kind fault.asForeign)).chain =
      ("i/o error: " ++ fault.message) :: fault.chain := by
  rw [← fault.chain_asForeign, ← fault.message_asForeign]
  rfl

def returned : Fault := .instruction 0x204 ⟨0x00EE⟩ .stackUnderflow

/-- The same out of a device, which is a machine itself. -/
def relayed : Fault := .io (.custom .other returned.asForeign)

/-- A device does not say what it names as its source. -/
def unplugged : Fault :=
  .io (.custom .other (.caused "device lost" "DeviceLost" (.plain "cable pulled" "CablePulled")))

/-- No instruction stands around the relayed fault, and there are three causes, not two. The message
of a source from outside need not be the end of anything. Around a fault that was passed on before,
fewer instructions are put than its causes tell of. -/
theorem chain_goes_on :
    (relayed.contexts = [] ∧ relayed.root = relayed ∧
      relayed.chain =
        ["i/o error: 00EE at 0x204: stack underflow: return without a matching call",
          "00EE at 0x204: stack underflow: return without a matching call",
          "stack underflow: return without a matching call"] ∧
      relayed.chain.length ≠ 0 + 2) ∧
    (unplugged.chain = ["i/o error: device lost", "device lost", "cable pulled"] ∧
      ¬ unplugged.chain.IsChain fun outer inner => inner.toList <:+ outer.toList) ∧
    returned.within [] = returned ∧
    returned.chain =
      ["00EE at 0x204: stack underflow: return without a matching call",
        "stack underflow: return without a matching call"] ∧
    returned.chain.length ≠ 0 + 1 := by
  decide +kernel

end Fault

end ChipEight
