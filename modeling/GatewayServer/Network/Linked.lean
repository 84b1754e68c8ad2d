import GatewayServer.Network.Gateway

/-!
# From part to part

What one part of the server hands over is what the next one gets. Every frame that a read loop posts
is a task of the threads, in the order of its session. Every message that a request passes to
`SocketWriter::write` is pushed once.

## Main definitions

* `WorkersPool.framesOf` — the frames of a session that were handed to the threads
* `Gateway.Linked` — what the parts hand over is what they get

## Main results

* `Linked.step` — every step keeps them linked
* `linked_foldl` — they are linked in every run
-/

namespace GatewayServer

open Lib

/-- The frames of a session that were handed to the threads. -/
def WorkersPool.framesOf {ι : Type} (p : WorkersPool ι) (id : SessionId) : List Frame :=
  (p.tasks.posted.filter fun job => job.data.session = id).map fun job =>
    ⟨job.data.header, job.data.request⟩

variable [FrameCodec]

/-! ## Frames that are posted -/

/-- What is posted after a step is the new frame, when the step posts at most one. -/
theorem ReadState.posted_newFrame {s t : ReadState} (frame : Option Frame)
    (h : t.posted = s.posted ++ frame.toList) : t.posted = s.posted ++ (s.newFrame t).toList := by
  rw [newFrame, h, List.drop_left]
  cases frame <;> rfl

/-- A completion posts one frame, or none. -/
theorem ClientSession.posted_feed (s : ReadState) (c : Completion) :
    (ClientSession.feed s c).posted =
      s.posted ++ (s.newFrame (ClientSession.feed s c)).toList := by
  cases hcoro : s.data.coro with
  | start =>
    apply ReadState.posted_newFrame none
    simp [feed, runRead, CoroData.receive, hcoro, readHeader, ReadState.posted]
  | header =>
    apply ReadState.posted_newFrame none
    cases hfailed : c.failed <;>
      simp [feed, runRead, CoroData.receive, hcoro, hfailed, readHeader, ReadState.posted]
  | body =>
    obtain ⟨-, htrace⟩ := feed_body (c := c) hcoro
    let frame : Option Frame :=
      if c.contextAlive then some ⟨s.data.header, (parsedBody s c).2⟩ else none
    apply ReadState.posted_newFrame frame
    cases halive : c.contextAlive <;> simp [ReadState.posted, htrace, halive, frame]

namespace Connection

theorem posted_read (c : Connection) :
    (c.step .read).loop.posted = c.loop.posted ++ (c.loop.newFrame (c.step .read).loop).toList := by
  simp only [step]
  split
  · exact ClientSession.posted_feed c.loop _
  · simp [ReadState.newFrame]

theorem posted_fail (c : Connection) (size : ℕ) :
    (c.fail size).loop.posted = c.loop.posted ++ (c.loop.newFrame (c.fail size).loop).toList :=
  ClientSession.posted_feed c.loop _

end Connection

namespace AcceptProcess

/-- The frames that the read loop of a session has posted. -/
def posted (a : AcceptProcess) (id : SessionId) : List Frame :=
  (a.sessions[id]?).elim [] fun session => session.connection.loop.posted

/-- A session that is new has posted nothing. -/
theorem posted_complete {a : AcceptProcess} (h : a.coroAccept = .accepting) (peer : Option ℕ)
    (bufferHeader : HeaderBuffer) (id : SessionId) :
    (a.complete peer bufferHeader).posted id = a.posted id := by
  rw [posted, posted, complete_eq h]
  cases peer with
  | none => simp
  | some peer =>
    by_cases hid : id < a.sessions.length
    · simp [List.getElem?_append_left hid]
    · have hle : a.sessions.length ≤ id := Nat.not_lt.mp hid
      simp only [Option.map_some, Option.toList_some, List.getElem?_append_right hle,
        List.getElem?_eq_none hle, Option.elim_none]
      cases id - a.sessions.length <;> rfl

/-- Only the session that is replaced may have posted something else. -/
theorem posted_set {a : AcceptProcess} {id : SessionId} {session : Session}
    (hid : a.sessions[id]? = some session) (session' : Session) (more : List Frame)
    (hmore : session'.connection.loop.posted = session.connection.loop.posted ++ more)
    (id' : SessionId) :
    ({ a with sessions := a.sessions.set id session' } : AcceptProcess).posted id' =
      a.posted id' ++ if id = id' then more else [] := by
  have hlt : id < a.sessions.length := (List.getElem?_eq_some_iff.mp hid).1
  by_cases hne : id = id'
  · subst hne
    simp only [posted, List.getElem?_set_self hlt, hid, Option.elim_some, hmore, if_true]
  · simp only [posted, List.getElem?_set_ne hne, hne, if_false, List.append_nil]

end AcceptProcess

/-! ## Tasks and messages -/

namespace WorkersPool

variable [Protocol] {ι : Type} [DecidableEq ι] {p : WorkersPool ι}

omit [FrameCodec] in
theorem framesOf_work (i : ι) (id : SessionId) :
    (p.step (.work i)).framesOf id = p.framesOf id := by
  rw [framesOf, framesOf, step, (p.moves_step task (.work i)).posted_work]

omit [FrameCodec] in
theorem step_post {i : ι} (hi : p.tasks.held i = none) (a : Arrival) :
    p.step (.post i a) = { p with tasks := p.tasks.post a } := by
  simp only [step, TaskPool.step, hi, Option.isNone_none, if_true]

omit [FrameCodec] in
theorem framesOf_post {i : ι} (hi : p.tasks.held i = none) (a : Arrival) (id : SessionId) :
    (p.step (.post i a)).framesOf id =
      p.framesOf id ++ if a.session = id then [⟨a.header, a.request⟩] else [] := by
  simp only [step_post hi, framesOf, WorkQueue.posted_post, List.filter_append, List.map_append]
  by_cases hid : a.session = id <;> simp [hid]

end WorkersPool

namespace Gateway

variable [Protocol] {ι κ : Type} [DecidableEq ι] [Fintype ι]

/-- What the parts hand over is what they get. -/
structure Linked (d : Database) (g : Gateway ι κ) : Prop where
  accepting : g.acceptor.coroAccept = .accepting
  network : g.pool.tasks.held none = none
  honours : g.pool.Honours (Evidence.anyFrames d).contract WorkersPool.task fun _ => True
  frames : ∀ id, g.pool.framesOf id = g.acceptor.posted id
  pushed : (g.pool.shared.queueTasks : Multiset Task) =
    ∑ i, (g.calls i : Multiset Task) + g.writers.queue.pushed

namespace Linked

variable {d : Database} {g : Gateway ι κ} (h : g.Linked d)
include h

/-- A step of the threads. -/
theorem pool_step (l : PoolLabel (Option ι) Arrival) :
    (g.pool.step l).Honours (Evidence.anyFrames d).contract WorkersPool.task (fun _ => True) ∧
      g.pool.shared.Precedes (g.pool.step l).shared :=
  h.honours.moves
    (fun a s _ hs => Evidence.honours_task a s (show (Evidence.anyFrames d).came a from trivial) hs)
    (fun _ _ => trivial)
    (g.pool.moves_step WorkersPool.task l)

theorem onRead (id : SessionId) (world : World) {f : Connection → Connection}
    (hf : ∀ c, (f c).loop.posted = c.loop.posted ++ (c.loop.newFrame (f c).loop).toList) :
    (g.onRead id world f).Linked d := by
  unfold Gateway.onRead
  cases hid : g.acceptor.sessions[id]? with
  | none => exact h
  | some session =>
    have hposted := AcceptProcess.posted_set hid
      { session with connection := f session.connection } _ (hf session.connection)
    dsimp only
    cases hframe : session.connection.loop.newFrame (f session.connection).loop with
    | none =>
      -- the read goes on within a frame
      refine ⟨h.accepting, h.network, h.honours, fun id' => ?_, h.pushed⟩
      rw [hframe] at hposted
      refine (h.frames id').trans (Eq.symm ((hposted id').trans ?_))
      split <;> exact List.append_nil _
    | some frame =>
      -- the read loop posts the frame to the pool
      have hstep := h.pool_step (.post none (arrival id world frame))
      have hpost := WorkersPool.step_post h.network (arrival id world frame)
      refine ⟨h.accepting, ?_, hstep.1, fun id' => ?_, ?_⟩
      · dsimp only
        rw [hpost]
        exact h.network
      · rw [hframe] at hposted
        refine (WorkersPool.framesOf_post h.network _ id').trans (Eq.symm ((hposted id').trans ?_))
        rw [h.frames id']
        rfl
      · dsimp only
        rw [hpost]
        exact h.pushed

/-- The messages that a thread comes to are those that its step has added. -/
theorem work (i : ι) : (g.work i).Linked d := by
  unfold Gateway.work
  split
  · next hidle =>
    obtain ⟨hhonours, hlater⟩ := h.pool_step (.work (some i))
    have hmoves := g.pool.moves_step WorkersPool.task (.work (some i))
    refine ⟨h.accepting, ?_, hhonours, fun id => ?_, ?_⟩
    · exact (hmoves.held_of_ne (Option.some_ne_none i).symm).trans h.network
    · exact (WorkersPool.framesOf_work (some i) id).trans (h.frames id)
    · obtain ⟨added, hadded⟩ := hlater.queued
      have hcalls := sum_update Multiset.ofList g.calls i added
      rw [hidle.1, Multiset.coe_nil, add_zero] at hcalls
      dsimp only
      rw [← hadded, List.drop_left, hcalls, ← Multiset.coe_add, h.pushed]
      abel
  · exact h

variable [DecidableEq κ] [Fintype κ]

/-- The message is no longer to come, and is on its way to the queue. -/
theorem callPush (i : ι) : (g.callPush i).Linked d := by
  unfold Gateway.callPush
  split
  · exact h
  · next task rest hcalls =>
    split
    · next hidle =>
      refine ⟨h.accepting, h.network, h.honours, h.frames, ?_⟩
      have hpushed := g.writers.pushed_step (.queue (.push i task))
      have hrest := sum_update Multiset.ofList g.calls i rest
      dsimp only at hpushed ⊢
      rw [if_pos hidle] at hpushed
      rw [hcalls, ← Multiset.cons_coe, ← Multiset.singleton_add] at hrest
      rw [hpushed, h.pushed]
      refine add_right_cancel (b := (rest : Multiset Task)) ?_
      calc _ = ∑ j, (g.calls j : Multiset Task) + rest + g.writers.queue.pushed := by abel
        _ = _ := by rw [← hrest]; abel
    · exact h

theorem onSocket (l : SocketLabel κ ι) : (g.onSocket l).Linked d := by
  have hsame (hl : ∀ i task, l ≠ .queue (.push i task)) :
      ({ g with writers := g.writers.step l } : Gateway ι κ).Linked d := by
    refine ⟨h.accepting, h.network, h.honours, h.frames, ?_⟩
    have hpushed := g.writers.pushed_step l
    dsimp only
    rw [hpushed, h.pushed]
    cases l with
    | queue l =>
      cases l with
      | push i task => exact absurd rfl (hl i task)
      | _ => rw [add_zero]
    | _ => rw [add_zero]
  unfold Gateway.onSocket
  split
  · exact h
  · next hl => exact hsame hl

theorem step (l : GatewayLabel ι κ) : (g.step l).Linked d := by
  cases l with
  | accept peer bufferHeader =>
    refine ⟨?_, h.network, h.honours, fun id => ?_, h.pushed⟩
    · rw [Gateway.step, AcceptProcess.complete_eq h.accepting]
    · exact (h.frames id).trans (AcceptProcess.posted_complete h.accepting ..).symm
  | arrive id bytes =>
    rw [Gateway.step]
    cases hid : g.acceptor.sessions[id]? with
    | none => exact h
    | some session =>
      -- bytes that arrive are no frame yet
      have hposted := AcceptProcess.posted_set hid
        { session with
          connection := session.connection.step (.arrive bytes)
          received := session.received ++ bytes } [] (List.append_nil _).symm
      refine ⟨h.accepting, h.network, h.honours, fun id' => ?_, h.pushed⟩
      refine (h.frames id').trans (Eq.symm ((hposted id').trans ?_))
      split <;> exact List.append_nil _
  | read id world => exact h.onRead id world fun c => c.posted_read
  | fail id world size => exact h.onRead id world fun c => c.posted_fail size
  | work i => exact h.work i
  | push i => exact h.callPush i
  | socket l => exact h.onSocket l

end Linked

omit [DecidableEq ι] in
theorem linked_start {d : Postgres} (hd : (Evidence.anyFrames d.db).rules.Inv d) :
    (start d : Gateway ι κ).Linked d.db where
  accepting := rfl
  network := rfl
  honours := TaskPool.honours_start (Evidence.allows_start hd).inv
  frames _ := rfl
  pushed := by
    show ((GatewayServer.start WrapperPg.database d).2.queueTasks : Multiset Task) = _
    let unheard : Evidence := { Evidence.anyFrames d.db with came := fun _ => False }
    have hunheard : unheard.rules.Inv d :=
      ⟨Evidence.holds_mono hd.toHolds fun _ _ => Or.inl trivial, hd.taken, hd.faults⟩
    rw [Evidence.queueTasks_start hunheard fun _ => id]
    simp [start, SocketWriters.start, ThreadSafeQueue.start, ThreadSafeQueue.pushed,
      PusherPoint.task, WorkQueue.empty]

variable [DecidableEq κ] [Fintype κ]

/-- The parts are linked in every run. -/
theorem linked_foldl {d : Postgres} (hd : (Evidence.anyFrames d.db).rules.Inv d)
    (labels : List (GatewayLabel ι κ)) : (labels.foldl step (start d) : Gateway ι κ).Linked d.db :=
  List.foldlRecOn labels step (linked_start hd) fun _ h l _ => h.step l

end Gateway

end GatewayServer
