import NpuStack.Schemes.Interaction
import NpuStack.Schemes.Loop
import NpuStack.Schemes.Text

/-! Process requests and answers. Every external tool is run through one boundary: an absolute
    executable, its arguments, a deadline and two output limits. The answer is an error category or
    a termination with the captured standard output and an overflow flag for each stream.

        pipe:  c₁ │ c₂ │ … │ cₙ │ end        captured = the first `limit` bytes of c₁ ++ … ++ cₙ

    Each stream is drained by a thread of its own, to its end and beyond the limit, in reads of
    whatever size (`reader_exact`). -/

namespace NpuStack.Runtime
open Interaction Text

/-- One process to run. Timeouts are in seconds; arguments are rendered text. -/
structure ProcessRequest where
  executable : String
  args : List String
  timeout : ℕ
  stdoutLimit : ℕ
  stderrLimit : ℕ
  environment : List (String × String)
  deriving DecidableEq, Repr

inductive Termination where
  | exit (code : ℕ)
  | signal
  deriving DecidableEq, Repr

structure ProcessOutput where
  termination : Termination
  stdout : Bytes
  stdoutOverflow : Bool
  stderrOverflow : Bool
  deriving DecidableEq, Repr

inductive ProcessError where
  | invalidExecutable | spawn | timeout | pipeIo | join | invalidTermination
  deriving DecidableEq, Repr

/-- Exit code 0 with both streams within their limits. -/
def ProcessOutput.clean (out : ProcessOutput) : Bool :=
  out.termination = .exit 0 && !out.stdoutOverflow && !out.stderrOverflow

/-! ### The reader of a pipe -/

variable {ε σ : Type}

/-- A stream to read from (`Read`): asked with room for so many bytes it fills the front of the room,
    and goes on from its next state. -/
structure Pipe (ε σ : Type) where
  read : σ → ℕ → Except ε (Bytes × σ)

structure CapturedOutput where
  bytes : Bytes
  overflow : Bool
  deriving DecidableEq, Repr

/-- The locals of the reader's loop, with the pipe as it is between two reads. -/
structure Reader (σ : Type) where
  pipe : σ
  captured : Bytes
  overflow : Bool
  buffer : Bytes
  deriving DecidableEq, Repr

/-- One turn of the reader's loop; it ends with what was captured and leaves the pipe behind. -/
def Reader.turn (pipe : Pipe ε σ) (limit : ℕ) (s : Reader σ) :
    Except ProcessError (Reader σ ⊕ CapturedOutput × σ) := do
  let (chunk, rest) ← (pipe.read s.pipe s.buffer.length).mapError fun _ => .pipeIo
  -- The room behind a short read still holds the bytes of earlier reads.
  let buffer := chunk ++ s.buffer.drop chunk.length
  let read := chunk.length
  if read = 0 then return .inr (⟨s.captured, s.overflow⟩, rest)
  let available := limit - s.captured.length
  let retained := min available read
  return .inl {
    pipe := rest
    captured := s.captured ++ buffer.take retained
    overflow := s.overflow || retained < read
    buffer }

/-- A thread that drains a pipe: its limit, and the locals it starts with. -/
structure JoinHandle (σ : Type) where
  limit : ℕ
  reader : Reader σ
  deriving DecidableEq, Repr

/-- The thread, if the builder can spawn one. -/
def spawnReader (spawned : Except ε Unit) (pipe : σ) (limit : ℕ) : Except ProcessError (JoinHandle σ) := do
  spawned.mapError fun _ => .spawn
  return { limit, reader := { pipe, captured := [], overflow := false, buffer := List.replicate 8192 0 } }

/-- The thread ends, and with that result. -/
def JoinHandle.Ends (pipe : Pipe ε σ) (thread : JoinHandle σ) (r : Except ProcessError (CapturedOutput × σ)) :
    Prop :=
  Loop.Ends (Reader.turn pipe thread.limit) thread.reader r

/-- Asked again and again with that room, the pipe hands over the chunks, and then is at its end or fails. -/
inductive Delivers (pipe : Pipe ε σ) (room : ℕ) : σ → List Bytes → Except ε σ → Prop
  | ended {s t : σ} : pipe.read s room = .ok ([], t) → Delivers pipe room s [] (.ok t)
  | failed {s : σ} {e : ε} : pipe.read s room = .error e → Delivers pipe room s [] (.error e)
  | chunk {s s' : σ} {chunk : Bytes} {chunks : List Bytes} {r : Except ε σ} :
      pipe.read s room = .ok (chunk, s') → chunk ≠ [] → chunk.length ≤ room →
      Delivers pipe room s' chunks r → Delivers pipe room s (chunk :: chunks) r

/-! ### What a reader captures -/

/-- What is kept of an output: its first bytes, and whether there were more. -/
def capture (limit : ℕ) (output : Bytes) : CapturedOutput := ⟨output.take limit, limit < output.length⟩

namespace Reader

variable {pipe : Pipe ε σ} {limit : ℕ} {s : Reader σ} {output : Bytes}

/-- The reader has seen that output, and its buffer has its room. -/
structure Saw (limit : ℕ) (output : Bytes) (s : Reader σ) : Prop where
  captured : s.captured = output.take limit
  overflow : s.overflow = decide (limit < output.length)
  room : s.buffer.length = 8192

/-- A chunk is appended as far as there is room below the limit. -/
theorem turn_chunk (h : Saw limit output s) {chunk : Bytes} {rest : σ}
    (hread : pipe.read s.pipe 8192 = .ok (chunk, rest)) (hne : chunk ≠ []) (hlength : chunk.length ≤ 8192) :
    ∃ s', turn pipe limit s = .ok (.inl s') ∧ s'.pipe = rest ∧ Saw limit (output ++ chunk) s' := by
  have hpos : chunk.length ≠ 0 := fun hzero => hne (List.length_eq_zero_iff.mp hzero)
  have hlen : s.captured.length = min limit output.length := by rw [h.captured, List.length_take]
  refine ⟨_, by rw [turn, h.room, hread]; exact if_neg hpos, rfl, ?_, ?_, ?_⟩
  · -- what is retained comes from the bytes just read, not from the rest of the buffer
    have hsame : min (min (limit - s.captured.length) chunk.length) chunk.length =
        min (limit - output.length) chunk.length := by omega
    rw [h.captured, List.take_append_of_le_length (Nat.min_le_right _ _), List.take_append, ← h.captured,
      List.append_cancel_left_eq, List.take_eq_take_iff, hsame]
  · rw [h.overflow, ← Bool.decide_or, List.length_append]
    exact decide_eq_decide.mpr (by omega)
  · rw [List.length_append, List.length_drop, h.room]
    omega

/-- The reader of a pipe that delivers those chunks more ends with what it keeps of the whole output, or
    fails with the pipe. -/
theorem ends_of_delivers {s : Reader σ} {pipe : Pipe ε σ} {p : σ} {chunks : List Bytes} {r : Except ε σ}
    (hdelivers : Delivers pipe 8192 p chunks r) (hpipe : s.pipe = p) (h : Saw limit output s) :
    Loop.Ends (turn pipe limit) s ((r.mapError fun _ => ProcessError.pipeIo).map fun t =>
      (capture limit (output ++ chunks.flatten), t)) := by
  induction hdelivers generalizing s output with
  | @ended p t hread =>
    refine Loop.ends_of_stop ?_
    rw [turn, hpipe, h.room, hread, h.captured, h.overflow, List.flatten_nil, List.append_nil]
    rfl
  | @failed p e hread =>
    refine Loop.ends_of_error ?_
    rw [turn, hpipe, h.room, hread]
    rfl
  | @chunk p p' chunk chunks r hread hne hlength hrest ih =>
    obtain ⟨s', hturn, hpipe', h'⟩ := turn_chunk h (hpipe ▸ hread) hne hlength
    rw [List.flatten_cons, ← List.append_assoc]
    exact Loop.ends_of_next hturn (ih hpipe' h')

end Reader

/-- For every limit and however a pipe's output is split into reads, its reader ends, and with the first
    bytes of the output up to the limit, an overflow exactly when there were more, and the pipe at its end. -/
theorem reader_exact {ε' : Type} (pipe : Pipe ε σ) {spawned : Except ε' Unit} {limit : ℕ} {s t : σ}
    {thread : JoinHandle σ} (hspawned : spawnReader spawned s limit = .ok thread) {chunks : List Bytes}
    (h : Delivers pipe 8192 s chunks (.ok t)) (r : Except ProcessError (CapturedOutput × σ)) :
    thread.Ends pipe r ↔ r = .ok ({
      bytes := chunks.flatten.take (min limit chunks.flatten.length)
      overflow := limit < chunks.flatten.length }, t) := by
  simp only [spawnReader, except_bind_ok, pure, Except.pure, Except.ok.injEq] at hspawned
  obtain ⟨_, -, rfl⟩ := hspawned
  have hsaw : Reader.Saw limit [] (⟨s, [], false, List.replicate 8192 0⟩ : Reader σ) :=
    ⟨List.take_nil.symm, rfl, List.length_replicate⟩
  rw [JoinHandle.Ends, (Reader.ends_of_delivers h rfl hsaw).iff, ← List.take_eq_take_min]
  rfl

/-- The bytes not read yet, handed over two at a time. -/
def inTwos : Pipe Unit Bytes := ⟨fun bytes room => .ok (bytes.take (min 2 room), bytes.drop (min 2 room))⟩

theorem inTwos_delivers : Delivers inTwos 8192 [1, 2, 3] [[1, 2], [3]] (.ok []) :=
  .chunk rfl nofun (by decide) (.chunk rfl nofun (by decide) (.ended rfl))

theorem reader_exact_inTwos :
    (∃ thread, spawnReader (.ok () : Except Unit Unit) [1, 2, 3] 2 = .ok thread ∧
      thread.Ends inTwos (.ok (⟨[1, 2], true⟩, []))) ∧
    ∃ thread, spawnReader (.ok () : Except Unit Unit) [1, 2, 3] 3 = .ok thread ∧
      thread.Ends inTwos (.ok (⟨[1, 2, 3], false⟩, [])) := by
  have hspawned : ∀ limit, spawnReader (.ok () : Except Unit Unit) ([1, 2, 3] : Bytes) limit =
      .ok ⟨limit, ⟨[1, 2, 3], [], false, List.replicate 8192 0⟩⟩ := fun _ => rfl
  exact ⟨⟨_, hspawned 2, (reader_exact inTwos (hspawned 2) inTwos_delivers _).mpr rfl⟩,
    ⟨_, hspawned 3, (reader_exact inTwos (hspawned 3) inTwos_delivers _).mpr rfl⟩⟩

end NpuStack.Runtime
