import GatewayServer.Lib.Run
import GatewayServer.Protocol
import Mathlib.Data.Int.Notation
import Mathlib.Logic.Function.Iterate

/-!
# The read loop of a session

`ClientSession::runRead`, a coroutine that reads a header, then a body of the length the header
states, posts the frame to `processRequest`, and starts over. It is resumed with the error code of
each `async_read`, whose bytes are in the buffer by then.

The model records what the loop does and what it is told: the reads that it starts, their
completions, the results of the two parsers, and the tasks that it posts. The memory that a body
needs is taken to be there.

## Main definitions

* `FrameCodec` — the parsers of a header and a request
* `CoroData`, `ClientSession.runRead` — the coroutine
* `Completion`, `ClientSession.feed` — one `async_read` that completes, and the loop after it
* `OnlyWholeFrames` — every task is for a frame that was read and parsed without an error
* `ClientSession.EndsReading` — a peer is read from finitely often

## Main results

* `onlyWholeFrames_iff` — when only whole frames are posted
* `onlyWholeFrames_truncated` — a task for a body that did not arrive
* `ClientSession.exists_rereads` — in the end the header is read again and again
* `ClientSession.not_endsReading` — the loop never ends
-/

namespace GatewayServer

open Lib

/-- The part of the protocol library that takes frames apart. A parser clears its message before
it reads, and says whether it succeeded; the message is there in any case. -/
class FrameCodec where
  /-- `goodok::SIZE_HEADER`. -/
  sizeHeader : ℕ
  /-- `ParseFromArray` of a `Serialize::Header`, on an array and a size. -/
  parseHeader : Bytes → ℤ → Bool × Header
  /-- `ParseFromArray` of a `Serialize::Request`. -/
  parseRequest : Bytes → ℤ → Bool × Request
  /-- What a header is after a move from it. -/
  movedHeader : Header → Header
  /-- What a request is after a move from it. -/
  movedRequest : Request → Request

variable [FrameCodec]

/-! ## The coroutine -/

/-- Where the coroutine is suspended: not started, or in one of its two reads. -/
inductive Suspension where
  | start
  | header
  | body
  deriving DecidableEq, Repr

/-- `detail::buffer_header_t`. -/
abbrev HeaderBuffer := { bytes : Bytes // bytes.length = FrameCodec.sizeHeader }

/-- `CoroData`. -/
structure CoroData where
  coro : Suspension
  bufferHeader : HeaderBuffer
  bufferBody : Bytes
  header : Header
  request : Request

/-- The two buffers that are read into. -/
inductive Buffer where
  | header
  | body
  deriving DecidableEq, Repr

/-- What the loop does and what it is told. -/
inductive ReadEvent where
  /-- An `async_read` is started. -/
  | asyncRead (buffer : Buffer) (size : ℕ)
  /-- The coroutine is resumed, with `ec.failed()`. -/
  | completed (failed : Bool)
  /-- The result of `header.ParseFromArray`, which the code does not look at. -/
  | parsedHeader (ok : Bool)
  /-- The result of `request.ParseFromArray`, which the code does not look at. -/
  | parsedRequest (ok : Bool)
  /-- A task that runs `processRequest` is posted. -/
  | posted (header : Header) (request : Request)
  deriving DecidableEq, Repr

/-- `static_cast<int>`. -/
def toInt (length : ℕ) : ℤ := (Int32.ofNat length).toInt

/-- `std::vector::resize`. -/
def resize (buffer : Bytes) (size : ℕ) : Bytes :=
  (buffer ++ List.replicate (size - buffer.length) 0).take size

namespace ClientSession

/-- The head of the loop, up to its `yield`. -/
def readHeader (d : CoroData) : CoroData × List ReadEvent :=
  ({ d with coro := .header }, [.asyncRead .header FrameCodec.sizeHeader])

/-- `AsyncContext::runAsync` with the messages of a frame, which are moved into the task when the
context is alive. -/
def postRequest (contextAlive : Bool) (d : CoroData) : CoroData × List ReadEvent :=
  if contextAlive then
    ({ d with
        header := FrameCodec.movedHeader d.header
        request := FrameCodec.movedRequest d.request },
      [.posted d.header d.request])
  else (d, [])

/-- `ClientSession::runRead`, from where it was suspended to the next `yield`. -/
def runRead (failed contextAlive : Bool) (d : CoroData) : CoroData × List ReadEvent :=
  match d.coro with
  | .start => readHeader d
  | .header =>
    -- `continue`: the header is read again
    if failed then readHeader d
    else
      let (ok, header) := FrameCodec.parseHeader d.bufferHeader FrameCodec.sizeHeader
      ({ d with
          coro := .body
          header
          bufferBody := resize d.bufferBody header.length },
        [.parsedHeader ok, .asyncRead .body header.length])
  | .body =>
    -- the error code of this read is not looked at
    let (ok, request) := FrameCodec.parseRequest d.bufferBody (toInt d.header.length)
    let (d, tasks) := postRequest contextAlive { d with request }
    let (d, reads) := readHeader d
    (d, .parsedRequest ok :: tasks ++ reads)

end ClientSession

/-! ## Completions -/

/-- An `async_read` that completes: `ec.failed()`, and the bytes that are in the buffer by then. The
context is alive or not when the handler runs. -/
structure Completion where
  failed : Bool
  received : Bytes
  contextAlive : Bool := true
  deriving DecidableEq, Repr

/-- The bytes that are received go to the front of a buffer, as far as it reaches. -/
def overwrite (buffer received : Bytes) : Bytes :=
  (received ++ buffer.drop received.length).take buffer.length

omit [FrameCodec] in
theorem length_overwrite (buffer received : Bytes) :
    (overwrite buffer received).length = buffer.length := by
  simp only [overwrite, List.length_take, List.length_append, List.length_drop]
  omega

omit [FrameCodec] in
theorem overwrite_of_length_eq {buffer received : Bytes} (h : received.length = buffer.length) :
    overwrite buffer received = received := by
  rw [overwrite, List.take_append_of_le_length (Nat.le_of_eq h.symm), ← h, List.take_length]

omit [FrameCodec] in
theorem length_resize (buffer : Bytes) (size : ℕ) : (resize buffer size).length = size := by
  simp only [resize, List.length_take, List.length_append, List.length_replicate]
  omega

namespace CoroData

/-- The bytes of a completion in the buffer that is being read into. -/
def receive (d : CoroData) (received : Bytes) : CoroData :=
  match d.coro with
  | .start => d
  | .header =>
    { d with bufferHeader :=
        ⟨overwrite d.bufferHeader received, (length_overwrite ..).trans d.bufferHeader.2⟩ }
  | .body => { d with bufferBody := overwrite d.bufferBody received }

/-- The size of the read that is outstanding. -/
def pending (d : CoroData) : ℕ :=
  match d.coro with
  | .start => 0
  | .header => FrameCodec.sizeHeader
  | .body => d.header.length

end CoroData

/-- The coroutine, and all that it has done and was told. -/
structure ReadState where
  data : CoroData
  trace : List ReadEvent

namespace ClientSession

/-- `ClientSession::startRead`. The header buffer holds anything. -/
def startRead (bufferHeader : HeaderBuffer) : ReadState :=
  let start : CoroData :=
    { coro := .start
      bufferHeader
      bufferBody := []
      header := ⟨.unknown, 0⟩
      request := {} }
  ⟨(runRead false true start).1, (runRead false true start).2⟩

/-- The outstanding `async_read` completes, and `runRead` is its handler. -/
def feed (s : ReadState) (c : Completion) : ReadState :=
  let result := runRead c.failed c.contextAlive (s.data.receive c.received)
  ⟨result.1, s.trace ++ .completed c.failed :: result.2⟩

end ClientSession

/-- A read without an error has filled its buffer. -/
def Completion.Fits (c : Completion) (size : ℕ) : Prop :=
  c.failed = false → c.received.length = size

/-- Every completion of a run is one of the read that is outstanding. -/
def Fed (s : ReadState) (cs : List Completion) : Prop :=
  Along ClientSession.feed (fun s c => c.Fits s.data.pending) s cs

/-! ## Whole frames -/

/-- The completions of the two reads of a frame. -/
structure FrameReads where
  headerRead : Completion
  bodyRead : Completion

/-- The frames of a run: a read of a header without an error, and the read of a body after it. -/
def frames : List Completion → List FrameReads
  | [] => []
  | [_] => []
  | c :: c' :: cs => if c.failed then frames (c' :: cs) else ⟨c, c'⟩ :: frames cs

namespace FrameReads

variable (f : FrameReads)

/-- What the parser makes of the header. -/
def header : Bool × Header := FrameCodec.parseHeader f.headerRead.received FrameCodec.sizeHeader

/-- The body arrived, and both messages were parsed. -/
def Whole : Prop :=
  f.bodyRead.failed = false ∧ f.header.1 = true ∧
    (FrameCodec.parseRequest f.bodyRead.received (toInt f.header.2.length)).1 = true

end FrameReads

/-- What precedes the task of a frame that was read and parsed without an error. -/
def wholeFrame (size : ℕ) : List ReadEvent :=
  [.completed false, .parsedHeader true, .asyncRead .body size, .completed false,
    .parsedRequest true]

/-- Every task is posted right after a frame was read and parsed without an error. -/
def OnlyWholeFrames (trace : List ReadEvent) : Prop :=
  ∀ before header request after, trace = before ++ .posted header request :: after →
    ∃ size, wholeFrame size <:+ before

namespace OnlyWholeFrames

variable {trace : List ReadEvent}

omit [FrameCodec] in
theorem of_prefix {trace' : List ReadEvent} (h : OnlyWholeFrames trace') (hle : trace <+: trace') :
    OnlyWholeFrames trace := by
  obtain ⟨rest, rfl⟩ := hle
  intro before header request after htrace
  apply h before header request (after ++ rest)
  rw [htrace, List.append_assoc, List.cons_append]

omit [FrameCodec] in
/-- Events that post nothing. -/
theorem append {events : List ReadEvent} (h : OnlyWholeFrames trace)
    (hevents : ∀ header request, .posted header request ∉ events) :
    OnlyWholeFrames (trace ++ events) := by
  intro before header request after htrace
  rcases List.append_eq_append_iff.mp htrace with ⟨rest, rfl, hrest⟩ | ⟨rest, hrest, hafter⟩
  · exact absurd (hrest ▸ List.mem_append_right rest List.mem_cons_self) (hevents header request)
  · cases rest with
    | nil =>
      have hmem : .posted header request ∈ [] ++ events := hafter ▸ List.mem_cons_self
      exact absurd hmem (hevents header request)
    | cons e rest =>
      obtain ⟨rfl, -⟩ := List.cons.inj hafter
      exact h before header request rest hrest

omit [FrameCodec] in
/-- The task of a frame. -/
theorem append_posted_iff (h : OnlyWholeFrames trace) (header : Header) (request : Request) :
    OnlyWholeFrames (trace ++ [.posted header request]) ↔ ∃ size, wholeFrame size <:+ trace := by
  constructor
  · intro hposted
    exact hposted trace header request [] rfl
  · intro hsize before header' request' after htrace
    rcases List.append_eq_append_iff.mp htrace with ⟨rest, rfl, hrest⟩ | ⟨rest, hrest, hafter⟩
    · cases rest with
      | nil => simpa using hsize
      | cons e rest => simp at hrest
    · cases rest with
      | nil =>
        rw [List.append_nil] at hrest
        exact hrest ▸ hsize
      | cons e rest =>
        obtain ⟨rfl, -⟩ := List.cons.inj hafter
        exact h before header' request' rest hrest

end OnlyWholeFrames

namespace ClientSession

variable {s : ReadState} {c : Completion}

/-! ## One completion -/

theorem pending_of_header (hs : s.data.coro = .header) :
    s.data.pending = FrameCodec.sizeHeader := by
  rw [CoroData.pending, hs]

/-- A header that is not read is read again. -/
theorem feed_header_failed (hs : s.data.coro = .header) (hc : c.failed = true) :
    (feed s c).data.coro = .header ∧
      (feed s c).trace =
        s.trace ++ [.completed true, .asyncRead .header FrameCodec.sizeHeader] := by
  simp [feed, runRead, CoroData.receive, hs, hc, readHeader]

/-- A header that is read says how long the body is. -/
theorem feed_header (hs : s.data.coro = .header) (hc : c.failed = false)
    (hfits : c.Fits FrameCodec.sizeHeader) :
    (feed s c).data.coro = .body ∧
      (feed s c).data.header =
        (FrameCodec.parseHeader c.received FrameCodec.sizeHeader).2 ∧
      (feed s c).data.bufferBody.length =
        (FrameCodec.parseHeader c.received FrameCodec.sizeHeader).2.length ∧
      (feed s c).trace = s.trace ++
        [.completed false,
          .parsedHeader (FrameCodec.parseHeader c.received FrameCodec.sizeHeader).1,
          .asyncRead .body (FrameCodec.parseHeader c.received FrameCodec.sizeHeader).2.length] := by
  have hbuffer : overwrite s.data.bufferHeader c.received = c.received :=
    overwrite_of_length_eq ((hfits hc).trans s.data.bufferHeader.2.symm)
  simp [feed, runRead, CoroData.receive, hs, hc, hbuffer, length_resize]

/-- What the parser makes of the body buffer after a completion. -/
def parsedBody (s : ReadState) (c : Completion) : Bool × Request :=
  FrameCodec.parseRequest (overwrite s.data.bufferBody c.received) (toInt s.data.header.length)

/-- A body that is read, or not, is posted while the context is alive. -/
theorem feed_body (hs : s.data.coro = .body) :
    (feed s c).data.coro = .header ∧
      (feed s c).trace = s.trace ++ [.completed c.failed, .parsedRequest (parsedBody s c).1] ++
        (if c.contextAlive then [.posted s.data.header (parsedBody s c).2] else []) ++
          [.asyncRead .header FrameCodec.sizeHeader] := by
  cases halive : c.contextAlive <;>
    simp [feed, runRead, CoroData.receive, hs, halive, readHeader, postRequest, parsedBody]

/-! ## Runs -/

/-- A run only adds to the trace. -/
theorem trace_grows (s : ReadState) (cs : List Completion) :
    s.trace <+: (cs.foldl feed s).trace := by
  induction cs generalizing s with
  | nil => exact List.prefix_refl _
  | cons c cs ih => exact (List.prefix_append _ _).trans (ih (feed s c))

end ClientSession

open ClientSession

/-- The two completions of a frame, the first without an error. -/
theorem onlyWholeFrames_frame {s : ReadState} {f : FrameReads} (hs : s.data.coro = .header)
    (htrace : OnlyWholeFrames s.trace) (hheader : f.headerRead.failed = false)
    (hfits : f.headerRead.Fits FrameCodec.sizeHeader)
    (hfits' : f.bodyRead.Fits (feed s f.headerRead).data.pending) :
    OnlyWholeFrames (feed (feed s f.headerRead) f.bodyRead).trace ↔
      (f.bodyRead.contextAlive = true → f.Whole) := by
  -- the two steps of the frame, with what each of them adds to the trace
  obtain ⟨hcoro, hparsed, hlength, hread⟩ := feed_header hs hheader hfits
  obtain ⟨-, hbody⟩ := @feed_body _ _ f.bodyRead hcoro
  have hsize : f.bodyRead.Fits f.header.2.length := by
    have hpending : (feed s f.headerRead).data.pending = f.header.2.length := by
      simp only [CoroData.pending, hcoro, hparsed, FrameReads.header]
    rwa [hpending] at hfits'
  -- without an error the parser gets what was received
  have hparsedBody : f.bodyRead.failed = false → parsedBody (feed s f.headerRead) f.bodyRead =
      FrameCodec.parseRequest f.bodyRead.received (toInt f.header.2.length) := by
    intro hok
    rw [parsedBody, overwrite_of_length_eq ((hsize hok).trans hlength.symm), hparsed]
    rfl
  have hreads : OnlyWholeFrames ((feed s f.headerRead).trace ++
      [.completed f.bodyRead.failed,
        .parsedRequest (parsedBody (feed s f.headerRead) f.bodyRead).1]) := by
    rw [hread]
    exact (htrace.append (by simp)).append (by simp)
  have hfive : (feed s f.headerRead).trace ++
      [.completed f.bodyRead.failed,
        .parsedRequest (parsedBody (feed s f.headerRead) f.bodyRead).1] =
      s.trace ++ [.completed false, .parsedHeader f.header.1, .asyncRead .body f.header.2.length,
        .completed f.bodyRead.failed,
        .parsedRequest (parsedBody (feed s f.headerRead) f.bodyRead).1] := by
    rw [hread, List.append_assoc]
    rfl
  rw [hbody]
  cases halive : f.bodyRead.contextAlive with
  | false =>
    simp only [Bool.false_eq_true, if_false, List.append_nil, false_implies, iff_true]
    exact hreads.append (by simp)
  | true =>
    simp only [if_true, true_implies]
    have hposted := hreads.append_posted_iff (feed s f.headerRead).data.header
      (parsedBody (feed s f.headerRead) f.bodyRead).2
    rw [hfive] at hposted ⊢
    constructor
    · intro h
      obtain ⟨size, before, hbefore⟩ := hposted.mp (h.of_prefix (List.prefix_append _ _))
      -- the five events before the task are those of this frame
      obtain ⟨-, hevents⟩ := List.append_inj' hbefore rfl
      simp only [wholeFrame, List.cons.injEq, ReadEvent.completed.injEq,
        ReadEvent.parsedHeader.injEq, ReadEvent.parsedRequest.injEq] at hevents
      obtain ⟨-, hok, -, hfailed, hbodyOk, -⟩ := hevents
      rw [hparsedBody hfailed.symm] at hbodyOk
      exact ⟨hfailed.symm, hok.symm, hbodyOk.symm⟩
    · rintro ⟨hfailed, hok, hbodyOk⟩
      refine (hposted.mpr ⟨f.header.2.length, s.trace, ?_⟩).append (by simp)
      rw [hparsedBody hfailed, hbodyOk, hok, hfailed]
      rfl

/-- A run that waits for a header and has posted whole frames only. -/
theorem onlyWholeFrames_foldl_iff {cs : List Completion} {s : ReadState}
    (hs : s.data.coro = .header) (htrace : OnlyWholeFrames s.trace) (hfed : Fed s cs) :
    OnlyWholeFrames (cs.foldl feed s).trace ↔
      ∀ f ∈ frames cs, f.bodyRead.contextAlive = true → f.Whole := by
  -- the induction goes from frame to frame, past the headers that are not read
  induction cs using frames.induct generalizing s with
  | case1 => simpa [frames] using htrace
  | case2 c =>
    have hnone : OnlyWholeFrames (feed s c).trace := by
      cases hc : c.failed with
      | true =>
        rw [(feed_header_failed hs hc).2]
        exact htrace.append (by simp)
      | false =>
        obtain ⟨-, -, -, hread⟩ := feed_header hs hc (pending_of_header hs ▸ hfed.1)
        rw [hread]
        exact htrace.append (by simp)
    simpa [frames] using hnone
  | case3 c c' cs hc ih =>
    obtain ⟨hcoro, hread⟩ := feed_header_failed hs hc
    have htrace' : OnlyWholeFrames (feed s c).trace := by
      rw [hread]
      exact htrace.append (by simp)
    have hframes : frames (c :: c' :: cs) = frames (c' :: cs) := by
      rw [frames, if_pos hc]
    rw [hframes]
    exact ih hcoro htrace' hfed.2
  | case4 c c' cs hc ih =>
    have hheader : c.failed = false := Bool.eq_false_iff.mpr hc
    have hfits : c.Fits FrameCodec.sizeHeader := pending_of_header hs ▸ hfed.1
    obtain ⟨hcoro, -⟩ := feed_header hs hheader hfits
    have hframe := @onlyWholeFrames_frame _ s ⟨c, c'⟩ hs htrace hheader hfits hfed.2.1
    have hframes : frames (c :: c' :: cs) = ⟨c, c'⟩ :: frames cs := by
      rw [frames, if_neg hc]
    rw [hframes, List.forall_mem_cons, List.foldl_cons, List.foldl_cons]
    constructor
    -- what is posted later cannot make up for this frame
    · intro h
      have htrace' := h.of_prefix (trace_grows (feed (feed s c) c') cs)
      exact ⟨hframe.mp htrace', (ih (feed_body hcoro).1 htrace' hfed.2.2).mp h⟩
    · rintro ⟨hwhole, hrest⟩
      exact (ih (feed_body hcoro).1 (hframe.mpr hwhole) hfed.2.2).mpr hrest

/-- Only whole frames are posted exactly when the body of every frame arrives without an error and
both messages of it are parsed, as far as the context is alive. -/
theorem onlyWholeFrames_iff (bufferHeader : HeaderBuffer) {cs : List Completion}
    (h : Fed (startRead bufferHeader) cs) :
    OnlyWholeFrames (cs.foldl feed (startRead bufferHeader)).trace ↔
      ∀ f ∈ frames cs, f.bodyRead.contextAlive = true → f.Whole := by
  have hstart : OnlyWholeFrames (startRead bufferHeader).trace := by
    intro before header request after htrace
    have hmem : .posted header request ∈ (startRead bufferHeader).trace :=
      htrace ▸ List.mem_append_right before List.mem_cons_self
    simp [startRead, runRead, readHeader] at hmem
  exact onlyWholeFrames_foldl_iff rfl hstart h

omit [FrameCodec] in
/-- A header of one byte, the length, and requests that are parsed unless they have a zero, to try
the model on. -/
@[reducible] def FrameCodec.lengthByte : FrameCodec where
  sizeHeader := 1
  parseHeader data _ := (true, ⟨.channelsRequest, (data.headD 0).toNat⟩)
  parseRequest data _ := (data.all (· ≠ 0), {})
  movedHeader _ := ⟨.unknown, 0⟩
  movedRequest _ := {}

omit [FrameCodec] in
theorem onlyWholeFrames_iff_two_bytes :
    letI := FrameCodec.lengthByte
    OnlyWholeFrames
      ([⟨false, [2], true⟩, ⟨false, [1, 1], true⟩].foldl feed (startRead ⟨[0], rfl⟩)).trace := by
  apply (@onlyWholeFrames_iff FrameCodec.lengthByte ⟨[0], rfl⟩
    [⟨false, [2], true⟩, ⟨false, [1, 1], true⟩]
    ⟨fun _ => rfl, fun _ => rfl, trivial⟩).mpr
  intro f hf _
  obtain rfl := List.mem_singleton.mp hf
  exact ⟨rfl, rfl, rfl⟩

omit [FrameCodec] in
/-- Of a body of two bytes one arrives, then the read fails, and the frame is posted. -/
theorem onlyWholeFrames_truncated :
    letI := FrameCodec.lengthByte
    Fed (startRead ⟨[0], rfl⟩) [⟨false, [2], true⟩, ⟨true, [1], true⟩] ∧
      ¬ OnlyWholeFrames
        ([⟨false, [2], true⟩, ⟨true, [1], true⟩].foldl feed (startRead ⟨[0], rfl⟩)).trace := by
  refine ⟨⟨fun _ => rfl, fun h => absurd h (by decide), trivial⟩, ?_⟩
  intro h
  obtain ⟨size, before, hbefore⟩ := h
    [.asyncRead .header 1, .completed false, .parsedHeader true, .asyncRead .body 2,
      .completed true, .parsedRequest false] ⟨.channelsRequest, 2⟩ {} [.asyncRead .header 1] rfl
  have hsplit : before ++ wholeFrame size = [.asyncRead .header 1] ++
      [.completed false, .parsedHeader true, .asyncRead .body 2, .completed true,
        .parsedRequest false] := hbefore
  obtain ⟨-, hevents⟩ := List.append_inj' hsplit rfl
  simp [wholeFrame] at hevents

/-! ## A peer that goes away -/

namespace ReadState

/-- The reads that were started. -/
def reads (s : ReadState) : ℕ := s.trace.countP fun e => e matches .asyncRead _ _

end ReadState

namespace ClientSession

/-- A read of what is left of a stream, after which the connection has ended. -/
def answer (stream : Bytes) (size : ℕ) : Bool × Bytes × Bytes :=
  if stream ≠ [] ∧ size ≤ stream.length then (false, stream.take size, stream.drop size)
  else (true, stream, [])

/-- The outstanding read is answered from a stream. -/
def readStep (contextAlive : ReadState → Bool) (p : ReadState × Bytes) : ReadState × Bytes :=
  let (failed, received, rest) := answer p.2 p.1.data.pending
  (feed p.1 ⟨failed, received, contextAlive p.1⟩, rest)

/-- The loop starts finitely many reads of a peer that sends a stream and goes away. -/
def EndsReading (bufferHeader : HeaderBuffer) (contextAlive : ReadState → Bool)
    (stream : Bytes) : Prop :=
  ∃ bound, ∀ k, ((readStep contextAlive)^[k] (startRead bufferHeader, stream)).1.reads ≤ bound

/-- Every completion makes the loop start one read. -/
theorem reads_feed (s : ReadState) (c : Completion) : (feed s c).reads = s.reads + 1 := by
  have hone (d : CoroData) :
      (runRead c.failed c.contextAlive d).2.countP (fun e => e matches .asyncRead _ _) = 1 := by
    cases hcoro : d.coro with
    | start => simp [runRead, hcoro, readHeader]
    | header => cases hfailed : c.failed <;> simp [runRead, hcoro, readHeader]
    | body =>
      cases halive : c.contextAlive <;> simp [runRead, hcoro, readHeader, postRequest]
  simp [ReadState.reads, feed, hone]

theorem reads_readStep (contextAlive : ReadState → Bool) (p : ReadState × Bytes) (k : ℕ) :
    ((readStep contextAlive)^[k] p).1.reads = p.1.reads + k := by
  induction k generalizing p with
  | zero => rfl
  | succ k ih =>
    have hstep : (readStep contextAlive p).1.reads = p.1.reads + 1 := reads_feed ..
    rw [Function.iterate_succ_apply, ih, hstep]
    omega

omit [FrameCodec] in
theorem length_answer (stream : Bytes) (size : ℕ) :
    (answer stream size).2.2.length ≤ stream.length - size := by
  unfold answer
  split <;> simp

/-- The stream is used up at some time, and a header is waited for then. -/
theorem exists_dead (hsize : 0 < FrameCodec.sizeHeader) (contextAlive : ReadState → Bool)
    (s : ReadState) (hs : s.data.coro = .header) (stream : Bytes) :
    ∃ k t, (readStep contextAlive)^[k] (s, stream) = (t, []) ∧ t.data.coro = .header := by
  -- a header that is read shortens the stream
  induction hlength : stream.length using Nat.strongRecOn generalizing s stream with
  | ind n ih =>
    have hpending := pending_of_header hs
    by_cases hread : stream ≠ [] ∧ FrameCodec.sizeHeader ≤ stream.length
    · have hanswer : answer stream s.data.pending =
          (false, stream.take s.data.pending, stream.drop s.data.pending) := by
        rw [answer, if_pos (hpending ▸ hread)]
      let c : Completion := ⟨false, stream.take s.data.pending, contextAlive s⟩
      have hfits : c.Fits FrameCodec.sizeHeader := by
        intro _
        simp only [c, hpending, List.length_take]
        omega
      obtain ⟨hcoro, -⟩ := feed_header hs rfl hfits
      have hstep : readStep contextAlive (s, stream) = (feed s c, stream.drop s.data.pending) := by
        simp only [readStep, hanswer, c]
      have hrest := length_answer (stream.drop s.data.pending) (feed s c).data.pending
      have hdrop : (stream.drop s.data.pending).length < n := by
        rw [List.length_drop, hpending]
        omega
      have hshort : (readStep contextAlive (feed s c, stream.drop s.data.pending)).2.length < n :=
        Nat.lt_of_le_of_lt (Nat.le_trans hrest (Nat.sub_le ..)) hdrop
      obtain ⟨k, t, hk, ht⟩ := ih _ hshort _ (feed_body hcoro).1 _ rfl
      refine ⟨k + 2, t, ?_, ht⟩
      rw [Function.iterate_succ_apply, Function.iterate_succ_apply, hstep]
      exact hk
    · have hanswer : answer stream s.data.pending = (true, stream, []) := by
        rw [answer, if_neg (hpending ▸ hread)]
      refine ⟨1, feed s ⟨true, stream, contextAlive s⟩, ?_, (feed_header_failed hs rfl).1⟩
      simp only [Function.iterate_one, readStep, hanswer]

/-- Once a header is waited for and the peer is gone, reads of the header fail and are started
again. -/
theorem readStep_dead (contextAlive : ReadState → Bool) {s : ReadState}
    (hs : s.data.coro = .header) (k : ℕ) :
    ((readStep contextAlive)^[k] (s, [])).1.trace = s.trace ++
      (List.replicate k
        [.completed true, .asyncRead .header FrameCodec.sizeHeader]).flatten := by
  induction k generalizing s with
  | zero => simp
  | succ k ih =>
    obtain ⟨hcoro, hread⟩ := @feed_header_failed _ s ⟨true, [], contextAlive s⟩ hs rfl
    have hstep : readStep contextAlive (s, []) = (feed s ⟨true, [], contextAlive s⟩, []) := rfl
    rw [Function.iterate_succ_apply, hstep, ih hcoro, hread, List.replicate_succ,
      List.flatten_cons, List.append_assoc]

/-- From some time on nothing but that happens. -/
theorem exists_rereads (hsize : 0 < FrameCodec.sizeHeader) (bufferHeader : HeaderBuffer)
    (contextAlive : ReadState → Bool) (stream : Bytes) :
    ∃ k, ∀ n, ((readStep contextAlive)^[n + k] (startRead bufferHeader, stream)).1.trace =
      ((readStep contextAlive)^[k] (startRead bufferHeader, stream)).1.trace ++
        (List.replicate n
          [.completed true, .asyncRead .header FrameCodec.sizeHeader]).flatten := by
  obtain ⟨k, s, hk, hs⟩ := exists_dead hsize contextAlive (startRead bufferHeader) rfl stream
  refine ⟨k, fun n => ?_⟩
  rw [Function.iterate_add_apply, hk, readStep_dead contextAlive hs n]

omit [FrameCodec] in
/-- A peer that goes away in the middle of a frame. -/
theorem exists_rereads_truncated :
    letI := FrameCodec.lengthByte
    ∃ k, ∀ n, ((readStep fun _ => true)^[n + k] (startRead ⟨[0], rfl⟩, [3, 7])).1.trace =
      ((readStep fun _ => true)^[k] (startRead ⟨[0], rfl⟩, [3, 7])).1.trace ++
        (List.replicate n [.completed true, .asyncRead .header 1]).flatten :=
  @exists_rereads FrameCodec.lengthByte (by decide) ⟨[0], rfl⟩ (fun _ => true) [3, 7]

/-- Whatever a peer sends, the loop goes on to read when the peer is gone. -/
theorem not_endsReading (bufferHeader : HeaderBuffer) (contextAlive : ReadState → Bool)
    (stream : Bytes) : ¬ EndsReading bufferHeader contextAlive stream := by
  rintro ⟨bound, h⟩
  have hbound := h bound
  have hstart : (startRead bufferHeader).reads = 1 := rfl
  rw [reads_readStep, hstart] at hbound
  omega

omit [FrameCodec] in
/-- A peer that goes away before it sends anything. -/
theorem not_endsReading_closed_peer :
    letI := FrameCodec.lengthByte
    ¬ EndsReading ⟨[0], rfl⟩ (fun _ => true) [] := by
  rintro ⟨bound, h⟩
  have hbound := h bound
  rw [@reads_readStep FrameCodec.lengthByte] at hbound
  have hone : 1 + bound ≤ bound := hbound
  omega

end ClientSession

end GatewayServer
