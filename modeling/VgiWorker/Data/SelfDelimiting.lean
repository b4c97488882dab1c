import VgiWorker.Data.Result

/-!
# Self-delimiting codes

A reader takes a value off the front of its input. A code delimits itself when
the reader takes exactly it, whatever follows, and refuses it cut short; codes
that do so one after the other do so together.
-/

set_option autoImplicit false

namespace VgiWorker.SelfDelimiting

variable {Symbol Failure Value Next : Type}

abbrev Reader (Symbol Failure Value : Type) :=
  List Symbol → Except Failure (Value × List Symbol)

def Refuses {Result : Type} (answer : Except Failure Result) : Prop :=
  ∃ failure, answer = .error failure

/-- `code` is read as `value`, and nothing shorter is. -/
structure Delimits (reader : Reader Symbol Failure Value) (code : List Symbol) (value : Value) :
    Prop where
  reads : ∀ rest, reader (code ++ rest) = .ok (value, rest)
  cut : ∀ kept, kept <+: code → kept ≠ code → Refuses (reader kept)

def done (value : Value) : Reader Symbol Failure Value := fun rest => .ok (value, rest)

def andThen (first : Reader Symbol Failure Value) (next : Value → Reader Symbol Failure Next) :
    Reader Symbol Failure Next := fun input =>
  first input >>= fun read => next read.1 read.2

/-- The reader on the whole input. -/
def exactly (trailing : Failure) (reader : Reader Symbol Failure Value) (input : List Symbol) :
    Except Failure Value :=
  reader input >>= fun read => if read.2.isEmpty then .ok read.1 else .error trailing

theorem Refuses.bind {First Result : Type} (answer : Except Failure First)
    (next : First → Except Failure Result) (refused : Refuses answer) :
    Refuses (answer >>= next) := by
  obtain ⟨failure, refused⟩ := refused
  exact ⟨failure, by rw [refused, except_error_bind]⟩

theorem delimits_done (value : Value) :
    Delimits (done value : Reader Symbol Failure Value) [] value where
  reads := fun _ => rfl
  cut := fun _ isPrefix shorter => absurd (List.prefix_nil.mp isPrefix) shorter

/-- A cut of two codes in a row cuts the first, or keeps it and cuts the second. -/
theorem cut_append (kept first second : List Symbol) (isPrefix : kept <+: first ++ second)
    (shorter : kept ≠ first ++ second) :
    (kept <+: first ∧ kept ≠ first) ∨
      ∃ rest, kept = first ++ rest ∧ rest <+: second ∧ rest ≠ second := by
  rcases List.prefix_or_prefix_of_prefix isPrefix (List.prefix_append first second) with
    within | ⟨rest, rfl⟩
  · by_cases whole : kept = first
    · subst whole
      refine .inr ⟨[], (List.append_nil _).symm, List.nil_prefix, fun nothing => shorter ?_⟩
      rw [← nothing, List.append_nil]
    · exact .inl ⟨within, whole⟩
  · exact .inr ⟨rest, rfl, (List.prefix_append_right_inj first).mp isPrefix,
      fun same => shorter (by rw [same])⟩

theorem Delimits.andThen {first : Reader Symbol Failure Value}
    {f : Value → Reader Symbol Failure Next} {firstCode secondCode : List Symbol}
    {value : Value} {result : Next} (firstReads : Delimits first firstCode value)
    (nextReads : Delimits (f value) secondCode result) :
    Delimits (andThen first f) (firstCode ++ secondCode) result where
  reads := fun rest => by
    rw [SelfDelimiting.andThen, List.append_assoc, firstReads.reads, except_ok_bind]
    exact nextReads.reads rest
  cut := fun kept isPrefix shorter => by
    rcases cut_append kept firstCode secondCode isPrefix shorter with
      ⟨within, shorter⟩ | ⟨rest, rfl, restPrefix, restShorter⟩
    · exact (firstReads.cut kept within shorter).bind _ _
    · rw [SelfDelimiting.andThen, firstReads.reads, except_ok_bind]
      exact nextReads.cut rest restPrefix restShorter

/-- `count` values in a row. -/
def repeated (reader : Reader Symbol Failure Value) : Nat → Reader Symbol Failure (List Value)
  | 0 => done []
  | count + 1 =>
      andThen reader fun value => andThen (repeated reader count) fun rest => done (value :: rest)

theorem delimits_repeated (reader : Reader Symbol Failure Value) (code : Value → List Symbol)
    (values : List Value) (each : ∀ value ∈ values, Delimits reader (code value) value) :
    Delimits (repeated reader values.length) (values.flatMap code) values := by
  induction values with
  | nil => exact delimits_done []
  | cons value rest ih =>
      have others := ih fun other member => each other (List.mem_cons_of_mem _ member)
      have both := (each value List.mem_cons_self).andThen
        (f := fun value => andThen (repeated reader rest.length) fun rest => done (value :: rest))
        (others.andThen (f := fun rest => done (value :: rest)) (delimits_done (value :: rest)))
      rwa [List.append_nil] at both

variable {reader : Reader Symbol Failure Value} {code : List Symbol} {value : Value}

theorem Delimits.exactly (trailing : Failure) (delimits : Delimits reader code value) :
    exactly trailing reader code = .ok value := by
  have reads := delimits.reads []
  rw [List.append_nil] at reads
  rw [SelfDelimiting.exactly, reads, except_ok_bind]
  rfl

theorem Delimits.exactly_cut (trailing : Failure) (delimits : Delimits reader code value)
    (kept : List Symbol) (isPrefix : kept <+: code) (shorter : kept ≠ code) :
    Refuses (SelfDelimiting.exactly trailing reader kept) :=
  (delimits.cut kept isPrefix shorter).bind _ _

theorem Delimits.exactly_extended (trailing : Failure) (delimits : Delimits reader code value)
    (extra : List Symbol) (nonempty : extra ≠ []) :
    Refuses (SelfDelimiting.exactly trailing reader (code ++ extra)) := by
  refine ⟨trailing, ?_⟩
  rw [SelfDelimiting.exactly, delimits.reads, except_ok_bind, if_neg]
  simpa using nonempty

end VgiWorker.SelfDelimiting
