import GatewayServer.Network.ReadLoop
import Mathlib.Algebra.Group.Nat.Defs

/-!
# Frames on a connection

The other side of a connection sends frames one after another. Their bytes arrive in pieces of any
size, and a read completes once all of its bytes are there. Nothing of a frame is left over for the
next one: every frame is posted as it was sent.

## Main definitions

* `FrameEncoder` — the encoder of the other side
* `Frame`, `Frame.Carried` — a frame, and what makes it survive the connection
* `Connection`, `Connection.step` — the read loop with the bytes that have arrived
* `Connection.Expects` — where in the stream of frames the loop stands

## Main results

* `Connection.Expects.read` — a read that completes takes the loop to the next place
* `Connection.posted_eq_frames` — the tasks that are posted are the frames that were sent
-/

namespace GatewayServer

open Lib

/-- The part of the protocol library that puts frames together. -/
class FrameEncoder where
  /-- `SerializeToArray` of a `Serialize::Header`. -/
  serializeHeader : Header → Bytes
  /-- `SerializeToArray` of a `Serialize::Request`. -/
  serializeRequest : Request → Bytes

open FrameEncoder

/-- What the other side sends: a header, and a request in the body. -/
structure Frame where
  header : Header
  request : Request
  deriving DecidableEq, Repr

variable [FrameCodec]

/-- The tasks that were posted: the messages that each of them runs `processRequest` on. -/
def ReadState.posted (s : ReadState) : List Frame :=
  s.trace.filterMap fun
    | .posted header request => some ⟨header, request⟩
    | _ => none

namespace Frame

variable [FrameEncoder]

/-- The bytes of a frame. -/
def bytes (f : Frame) : Bytes := serializeHeader f.header ++ serializeRequest f.request

/-- The header states the length of the body, and the parsers undo the encoder. -/
structure Carried (f : Frame) : Prop where
  length_header : (serializeHeader f.header).length = FrameCodec.sizeHeader
  parse_header :
    FrameCodec.parseHeader (serializeHeader f.header) FrameCodec.sizeHeader = (true, f.header)
  length_request : (serializeRequest f.request).length = f.header.length
  length_lt : f.header.length < 2 ^ 31
  parse_request :
    FrameCodec.parseRequest (serializeRequest f.request) (serializeRequest f.request).length =
      (true, f.request)

/-- The cast of the length does not change it. -/
theorem Carried.toInt_length {f : Frame} (h : f.Carried) :
    toInt f.header.length = (serializeRequest f.request).length := by
  rw [toInt, Int32.toInt_ofNat_of_lt h.length_lt, h.length_request]

end Frame

/-! ## Connections -/

/-- The read loop of a session, and the bytes that have arrived and are not read yet. -/
structure Connection where
  loop : ReadState
  arrived : Bytes

/-- What happens on a connection: bytes arrive, or the outstanding read is tried. -/
inductive Traffic where
  | arrive (bytes : Bytes)
  | read
  deriving DecidableEq, Repr

/-- The bytes that arrive. -/
def Traffic.bytes : Traffic → Bytes
  | .arrive bytes => bytes
  | .read => []

namespace Connection

/-- A read completes when it has all of its bytes, and waits until then. -/
def step (c : Connection) : Traffic → Connection
  | .arrive bytes => { c with arrived := c.arrived ++ bytes }
  | .read =>
    if c.loop.data.pending ≤ c.arrived.length then
      { loop := ClientSession.feed c.loop ⟨false, c.arrived.take c.loop.data.pending, true⟩
        arrived := c.arrived.drop c.loop.data.pending }
    else c

/-- A session that has just started to read. -/
def connect (bufferHeader : HeaderBuffer) : Connection :=
  ⟨ClientSession.startRead bufferHeader, []⟩

theorem step_read {c : Connection} {size : ℕ} (hpending : c.loop.data.pending = size)
    (hread : size ≤ c.arrived.length) :
    c.step .read =
      ⟨ClientSession.feed c.loop ⟨false, c.arrived.take size, true⟩, c.arrived.drop size⟩ := by
  subst hpending
  exact if_pos hread

theorem step_read_of_lt {c : Connection} {size : ℕ} (hpending : c.loop.data.pending = size)
    (hwait : c.arrived.length < size) : c.step .read = c := by
  subst hpending
  exact if_neg (Nat.not_le.mpr hwait)

omit [FrameCodec] in
/-- A stream in two parts begins with something that the first part covers. -/
theorem take_of_append_eq {a b x y : Bytes} (h : a ++ b = x ++ y) (hle : x.length ≤ a.length) :
    a.take x.length = x ∧ a.drop x.length ++ b = y := by
  have htake := congrArg (List.take x.length) h
  have hdrop := congrArg (List.drop x.length) h
  rw [List.take_append_of_le_length hle, List.take_left] at htake
  rw [List.drop_append_of_le_length hle, List.drop_left] at hdrop
  exact ⟨htake, hdrop⟩

/-! ## Places in a stream -/

variable [FrameEncoder]

/-- Where the loop stands when `ahead` is still to arrive: before some frames, or before the body
of the first of them. The number says how many reads the frames still take. -/
inductive Expects (c : Connection) (ahead : Bytes) : List Frame → ℕ → Prop where
  | header {rest : List Frame} (coro : c.loop.data.coro = .header)
      (stream : c.arrived ++ ahead = rest.flatMap Frame.bytes) :
      Expects c ahead rest (2 * rest.length)
  | body {f : Frame} {rest : List Frame} (coro : c.loop.data.coro = .body)
      (header : c.loop.data.header = f.header)
      (buffer : c.loop.data.bufferBody.length = f.header.length)
      (stream : c.arrived ++ ahead =
        serializeRequest f.request ++ rest.flatMap Frame.bytes) :
      Expects c ahead (f :: rest) (2 * rest.length + 1)

namespace Expects

variable {c : Connection} {ahead : Bytes} {f : Frame} {rest : List Frame} {n : ℕ}

/-- Bytes that arrive are no longer ahead. -/
theorem arrive {bytes : Bytes} (h : c.Expects (bytes ++ ahead) rest n) :
    (c.step (.arrive bytes)).Expects ahead rest n := by
  cases h with
  | header coro stream =>
    exact .header coro (by rw [← stream]; exact List.append_assoc ..)
  | body coro header buffer stream =>
    exact .body coro header buffer (by rw [← stream]; exact List.append_assoc ..)

/-- The header of the next frame is read, and its body is waited for. -/
theorem read_header (hf : f.Carried) (hcoro : c.loop.data.coro = .header)
    (hstream : c.arrived ++ ahead = (f :: rest).flatMap Frame.bytes)
    (hread : FrameCodec.sizeHeader ≤ c.arrived.length) :
    (c.step .read).Expects ahead (f :: rest) (2 * rest.length + 1) ∧
      (c.step .read).loop.posted = c.loop.posted := by
  rw [← hf.length_header] at hread
  rw [List.flatMap_cons, Frame.bytes, List.append_assoc] at hstream
  obtain ⟨htake, hdrop⟩ := take_of_append_eq hstream hread
  rw [hf.length_header] at htake hdrop hread
  rw [step_read (ClientSession.pending_of_header hcoro) hread, htake]
  obtain ⟨hcoro', hheader, hlength, htrace⟩ := ClientSession.feed_header
    (c := ⟨false, serializeHeader f.header, true⟩) hcoro rfl (fun _ => hf.length_header)
  rw [hf.parse_header] at hheader hlength htrace
  refine ⟨.body hcoro' hheader hlength hdrop, ?_⟩
  simp [ReadState.posted, htrace]

/-- The body of a frame is read, and the frame is posted. -/
theorem read_body (hf : f.Carried) (hcoro : c.loop.data.coro = .body)
    (hheader : c.loop.data.header = f.header)
    (hbuffer : c.loop.data.bufferBody.length = f.header.length)
    (hstream : c.arrived ++ ahead = serializeRequest f.request ++ rest.flatMap Frame.bytes)
    (hread : f.header.length ≤ c.arrived.length) :
    (c.step .read).Expects ahead rest (2 * rest.length) ∧
      (c.step .read).loop.posted = c.loop.posted ++ [f] := by
  have hpending : c.loop.data.pending = f.header.length := by
    rw [CoroData.pending, hcoro, hheader]
  rw [← hf.length_request] at hread
  obtain ⟨htake, hdrop⟩ := take_of_append_eq hstream hread
  rw [hf.length_request] at htake hdrop hread
  rw [step_read hpending hread, htake]
  obtain ⟨hcoro', htrace⟩ := ClientSession.feed_body
    (c := ⟨false, serializeRequest f.request, true⟩) hcoro
  -- the body fills the buffer, so that the parser sees nothing of an earlier frame
  have hparsed : ClientSession.parsedBody c.loop ⟨false, serializeRequest f.request, true⟩ =
      (true, f.request) := by
    rw [ClientSession.parsedBody,
      overwrite_of_length_eq (hf.length_request.trans hbuffer.symm), hheader, hf.toInt_length,
      hf.parse_request]
  refine ⟨.header hcoro' hdrop, ?_⟩
  simp [ReadState.posted, htrace, hparsed, hheader]

/-- A read that completes takes the loop to its next place. When nothing is ahead, it does
complete, unless there are no frames left. -/
theorem read (hsize : 0 < FrameCodec.sizeHeader) (hrest : ∀ f ∈ rest, f.Carried)
    (h : c.Expects ahead rest n) :
    ∃ posted rest' n', (c.step .read).Expects ahead rest' n' ∧ rest = posted ++ rest' ∧
      (c.step .read).loop.posted = c.loop.posted ++ posted ∧ (ahead = [] → n' = n - 1) := by
  cases h with
  | header hcoro hstream =>
    by_cases hread : FrameCodec.sizeHeader ≤ c.arrived.length
    · cases rest with
      | nil =>
        have hnil : c.arrived = [] := (List.append_eq_nil_iff.mp hstream).1
        rw [hnil] at hread
        exact absurd hsize (Nat.not_lt.mpr hread)
      | cons f rest =>
        obtain ⟨hexpects, hposted⟩ :=
          read_header (hrest f List.mem_cons_self) hcoro hstream hread
        refine ⟨[], f :: rest, _, hexpects, rfl, by rw [hposted, List.append_nil], fun _ => ?_⟩
        rw [List.length_cons]
        omega
    · rw [step_read_of_lt (ClientSession.pending_of_header hcoro) (Nat.not_le.mp hread)]
      refine ⟨[], rest, _, .header hcoro hstream, rfl, (List.append_nil _).symm, ?_⟩
      rintro rfl
      cases rest with
      | nil => rfl
      | cons f rest =>
        -- a header that has arrived is not waited for
        rw [List.append_nil] at hstream
        rw [hstream, List.flatMap_cons, Frame.bytes, List.length_append, List.length_append,
          (hrest f List.mem_cons_self).length_header] at hread
        omega
  | @body f rest hcoro hheader hbuffer hstream =>
    have hf := hrest f List.mem_cons_self
    by_cases hread : f.header.length ≤ c.arrived.length
    · obtain ⟨hexpects, hposted⟩ := read_body hf hcoro hheader hbuffer hstream hread
      exact ⟨[f], rest, _, hexpects, rfl, hposted, fun _ => rfl⟩
    · have hpending : c.loop.data.pending = f.header.length := by
        rw [CoroData.pending, hcoro, hheader]
      rw [step_read_of_lt hpending (Nat.not_le.mp hread)]
      refine ⟨[], f :: rest, _, .body hcoro hheader hbuffer hstream, rfl,
        (List.append_nil _).symm, ?_⟩
      rintro rfl
      rw [List.append_nil] at hstream
      rw [hstream, List.length_append, hf.length_request] at hread
      omega

theorem le (h : c.Expects ahead rest n) : n ≤ 2 * rest.length := by
  cases h with
  | header => exact Nat.le_refl _
  | body =>
    rw [List.length_cons]
    omega

end Expects

/-! ## Runs -/

/-- The frames of a stream are those that are posted and those that are still expected. -/
def InStream (frames : List Frame) (ahead : Bytes) (n : ℕ) (c : Connection) : Prop :=
  ∃ rest, c.Expects ahead rest n ∧ frames = c.loop.posted ++ rest

namespace InStream

variable {frames : List Frame} {ahead : Bytes} {n : ℕ} {c : Connection}

theorem posted_prefix (h : InStream frames ahead n c) : c.loop.posted <+: frames := by
  obtain ⟨rest, -, hframes⟩ := h
  exact ⟨rest, hframes.symm⟩

theorem le (h : InStream frames ahead n c) : n ≤ 2 * frames.length := by
  obtain ⟨rest, hexpects, rfl⟩ := h
  have hle := hexpects.le
  rw [List.length_append]
  omega

/-- With no read to come, every frame is posted. -/
theorem posted_eq (h : InStream frames ahead 0 c) : c.loop.posted = frames := by
  obtain ⟨rest, hexpects, hframes⟩ := h
  generalize hzero : 0 = n at hexpects
  cases hexpects with
  | header =>
    obtain rfl : rest = [] := List.length_eq_zero_iff.mp (by omega)
    rw [hframes, List.append_nil]
  | body => omega

variable (hsize : 0 < FrameCodec.sizeHeader) (hframes : ∀ f ∈ frames, f.Carried)
include hsize hframes

theorem read (h : InStream frames ahead n c) :
    ∃ n', InStream frames ahead n' (c.step .read) ∧ (ahead = [] → n' = n - 1) := by
  obtain ⟨rest, hexpects, rfl⟩ := h
  obtain ⟨posted, rest', n', hexpects', rfl, hposted, hn⟩ :=
    hexpects.read hsize fun f hf => hframes f (List.mem_append_right _ hf)
  refine ⟨n', ⟨rest', hexpects', ?_⟩, hn⟩
  rw [hposted, List.append_assoc]

/-- The loop stays in the stream, in whatever pieces it arrives and whenever a read is tried. -/
theorem foldl {traffic : List Traffic}
    (h : InStream frames (traffic.flatMap Traffic.bytes ++ ahead) n c) :
    ∃ n', InStream frames ahead n' (traffic.foldl step c) := by
  induction traffic generalizing c n with
  | nil => exact ⟨n, h⟩
  | cons t traffic ih =>
    rw [List.flatMap_cons, List.append_assoc] at h
    cases t with
    | arrive bytes =>
      obtain ⟨rest, hexpects, hrest⟩ := h
      exact ih ⟨rest, hexpects.arrive, hrest⟩
    | read =>
      obtain ⟨n', h', -⟩ := h.read hsize hframes
      exact ih h'

/-- Once everything has arrived, every read takes the loop further. -/
theorem foldl_read (h : InStream frames [] n c) (k : ℕ) :
    InStream frames [] (n - k) ((List.replicate k .read).foldl step c) := by
  induction k generalizing c n with
  | zero => exact h
  | succ k ih =>
    obtain ⟨n', h', hn⟩ := h.read hsize hframes
    obtain rfl := hn rfl
    rw [List.replicate_succ, List.foldl_cons, Nat.add_comm, ← Nat.sub_sub]
    exact ih h'

end InStream

/-- Whatever frames are sent, in whatever pieces they arrive, and whenever the reads are tried, the
tasks that are posted are the frames in their order; after two reads for each frame they are all of
them. -/
theorem posted_eq_frames (hsize : 0 < FrameCodec.sizeHeader) (bufferHeader : HeaderBuffer)
    {frames : List Frame} (hframes : ∀ f ∈ frames, f.Carried) {traffic : List Traffic}
    (harrived : traffic.flatMap Traffic.bytes = frames.flatMap Frame.bytes) :
    (traffic.foldl step (connect bufferHeader)).loop.posted <+: frames ∧
      ∀ k, 2 * frames.length ≤ k →
        ((List.replicate k .read).foldl step
          (traffic.foldl step (connect bufferHeader))).loop.posted = frames := by
  have hstart : InStream frames (traffic.flatMap Traffic.bytes ++ []) (2 * frames.length)
      (connect bufferHeader) := by
    refine ⟨frames, .header rfl ?_, rfl⟩
    rw [List.append_nil, harrived]
    rfl
  obtain ⟨n, hend⟩ := hstart.foldl hsize hframes
  refine ⟨hend.posted_prefix, fun k hk => ?_⟩
  have hrest := hend.foldl_read hsize hframes k
  rw [Nat.sub_eq_zero_of_le (Nat.le_trans hend.le hk)] at hrest
  exact hrest.posted_eq

end Connection

/-! ## An encoder to try the model on -/

omit [FrameCodec] in
/-- A header of two bytes: whether the body is a channels request, and its length. The body has as
many bytes as the number of the client says. -/
@[reducible] def FrameCodec.unary : FrameCodec where
  sizeHeader := 2
  parseHeader data _ :=
    (true, ⟨if data.headD 0 = 0 then .unknown else .channelsRequest, (data.getD 1 0).toNat⟩)
  parseRequest data _ :=
    (true, if data = [] then {} else { channelsRequest := some ⟨data.length⟩ })
  movedHeader _ := ⟨.unknown, 7⟩
  movedRequest _ := { channelsRequest := some ⟨7⟩ }

omit [FrameCodec] in
@[reducible] def FrameEncoder.unary : FrameEncoder where
  serializeHeader header :=
    [if header.command = .unknown then 0 else 1, UInt8.ofNat header.length]
  serializeRequest request :=
    match request.channelsRequest with
    | some body => List.replicate body.clientId 1
    | none => []

namespace Connection

omit [FrameCodec] in
/-- A long body, an empty one under another command, and a short one, in three pieces. -/
theorem posted_eq_frames_three :
    letI := FrameCodec.unary
    letI := FrameEncoder.unary
    ((List.replicate 6 .read).foldl step
      ([.arrive [1, 3, 1], .read, .arrive [1, 1, 0, 0, 1], .read, .arrive [1, 1]].foldl step
        (connect ⟨[0, 0], rfl⟩))).loop.posted =
      [⟨⟨.channelsRequest, 3⟩, { channelsRequest := some ⟨3⟩ }⟩, ⟨⟨.unknown, 0⟩, {}⟩,
        ⟨⟨.channelsRequest, 1⟩, { channelsRequest := some ⟨1⟩ }⟩] := by
  refine (@posted_eq_frames FrameCodec.unary FrameEncoder.unary (by decide) ⟨[0, 0], rfl⟩
    [⟨⟨.channelsRequest, 3⟩, { channelsRequest := some ⟨3⟩ }⟩, ⟨⟨.unknown, 0⟩, {}⟩,
      ⟨⟨.channelsRequest, 1⟩, { channelsRequest := some ⟨1⟩ }⟩] ?_
    [.arrive [1, 3, 1], .read, .arrive [1, 1, 0, 0, 1], .read, .arrive [1, 1]] rfl).2 6
    (by decide)
  let := FrameCodec.unary
  let := FrameEncoder.unary
  simp only [List.forall_mem_cons]
  exact ⟨⟨rfl, rfl, rfl, by decide, rfl⟩, ⟨rfl, rfl, rfl, by decide, rfl⟩,
    ⟨rfl, rfl, rfl, by decide, rfl⟩, by simp⟩

end Connection

end GatewayServer
