import SedsNet.PeerStream

/-! # Streams stay with their peer

What a step can do to a session is `Change`: nothing, count a sequence number, complete the handshake
with a frame of its peer, or end it by a frame of its peer or a local call.  A session with a bound
address and a known peer stream therefore keeps its peer over every run, only frames of that peer's
stream reach it, and a request that has opened it does not open another one while it exists. -/

namespace SedsNet

open Std (ExtTreeMap)
open Runs List

namespace P2pStreamSession

/-- The peer of a session: host, address, ports and stream. -/
structure Peer where
  hostname : Bytes
  address : UInt32
  localPort : UInt16
  peerPort : UInt16
  streamId : UInt32
deriving DecidableEq

def peer (s : P2pStreamSession) : Peer := ⟨s.peerHostname, s.peerAddress, s.localPort, s.peerPort, s.peerStreamId⟩

/-- The peer that a frame comes from. -/
def sender (msg : P2pDecoded) (frame : P2pStreamDecoded) : Peer :=
  ⟨msg.sourceHostname, msg.sourceAddress, msg.destinationPort, msg.sourcePort, frame.sourceStreamId⟩

/-- The address of the peer is bound and its stream is known. -/
def Bound (s : P2pStreamSession) : Prop := s.peerAddressBound = true ∧ s.peerStreamId ≠ 0

theorem answersTo_iff {s : P2pStreamSession} {msg : P2pDecoded} {frame : P2pStreamDecoded} :
    s.answersTo msg frame = true ↔ s.peer = sender msg frame := by
  unfold answersTo peer sender
  simp only [Bool.and_eq_true, beq_iff_eq, Peer.mk.injEq]
  tauto

end P2pStreamSession

namespace StreamState

open P2pStreamSession

variable {st st' : StreamState} {op : StreamOp} {id k : UInt32} {s s' : P2pStreamSession} {msg : P2pDecoded}
  {frame : P2pStreamDecoded}

/-- A frame that a bound session takes comes from its peer. -/
theorem peer_eq_sender (hbound : s.Bound) (htuple : st.tupleMatches s msg = true) (hstream : s.fromStream frame = true) :
    s.peer = sender msg frame := by
  obtain ⟨haddress, hknown⟩ := hbound
  unfold tupleMatches at htuple
  unfold fromStream at hstream
  simp only [haddress, if_true, Bool.and_eq_true, beq_iff_eq] at htuple
  simp only [Bool.or_eq_true, beq_iff_eq, hknown, false_or] at hstream
  obtain ⟨⟨⟨hhost, haddr⟩, hpeer⟩, hlocal⟩ := htuple
  unfold peer sender
  rw [hhost, haddr, hpeer, hlocal, hstream]

/-! ### What a step can do to a session -/

/-- The operation is the receipt of this frame. -/
def Receives (op : StreamOp) (msg : P2pDecoded) (frame : P2pStreamDecoded) : Prop :=
  ∃ payload replied accepts, op = .receive payload true replied accepts ∧ streamFrame payload = some (msg, frame)

def IsReceive (op : StreamOp) : Prop :=
  ∃ payload attributed replied accepts, op = .receive payload attributed replied accepts

inductive Change (st : StreamState) (op : StreamOp) : Option P2pStreamSession → Option P2pStreamSession → Prop
  | same (x : Option P2pStreamSession) : Change st op x x
  | opened (s : P2pStreamSession) : Change st op none (some s)
  | counted (s : P2pStreamSession) (n : UInt32) : Change st op (some s) (some { s with nextSequence := n })
  | connected {s : P2pStreamSession} {msg : P2pDecoded} {frame : P2pStreamDecoded} (hframe : Receives op msg frame)
      (htuple : st.tupleMatches s msg = true) (hstream : s.fromStream frame = true) :
      Change st op (some s) (some (connectedSession s msg frame))
  | closed {s : P2pStreamSession} {msg : P2pDecoded} {frame : P2pStreamDecoded} (hframe : Receives op msg frame)
      (htuple : st.tupleMatches s msg = true) (hstream : s.fromStream frame = true) : Change st op (some s) none
  | retired (s : P2pStreamSession) (hlocal : ¬ IsReceive op) : Change st op (some s) none

theorem change_insert {k : UInt32} {new : P2pStreamSession} (h : Change st op st.sessions[k]? (some new)) (id : UInt32) :
    Change st op st.sessions[id]? (st.sessions.insert k new)[id]? := by
  by_cases hid : k = id
  · subst hid
    rw [ExtTreeMap.getElem?_insert_self]
    exact h
  · rw [ExtTreeMap.getElem?_insert, if_neg (by simpa using hid)]
    exact .same _

theorem change_erase {k : UInt32} (h : Change st op st.sessions[k]? none) (id : UInt32) :
    Change st op st.sessions[id]? (st.sessions.erase k)[id]? := by
  by_cases hid : k = id
  · subst hid
    rw [ExtTreeMap.getElem?_erase_self]
    exact h
  · rw [ExtTreeMap.getElem?_erase, if_neg (by simpa using hid)]
    exact .same _

theorem allocateFrom_free {sessions : ExtTreeMap UInt32 P2pStreamSession} {rounds : ℕ} : ∀ {next : UInt32},
    (allocateFrom sessions rounds next).1 ≠ 0 → sessions[(allocateFrom sessions rounds next).1]? = none := by
  induction rounds with
  | zero =>
    intro next h
    exact absurd rfl h
  | succ rounds ih =>
    intro next h
    unfold allocateFrom at h ⊢
    split
    case isTrue hfree => exact ExtTreeMap.getElem?_eq_none hfree
    case isFalse hused =>
      rw [if_neg hused] at h
      exact ih h

theorem change_open {new : P2pStreamSession} (hid : st.allocateStreamId.1 ≠ 0) (id : UInt32) :
    Change st op st.sessions[id]? (st.sessions.insert st.allocateStreamId.1 new)[id]? := by
  refine change_insert ?_ id
  have hfree : st.sessions[st.allocateStreamId.1]? = none := allocateFrom_free hid
  rw [hfree]
  exact .opened new

/-- What the dispatch of a frame can do. -/
inductive Outcome (st : StreamState) (msg : P2pDecoded) (frame : P2pStreamDecoded) : Dispatched → Prop
  | ignored : Outcome st msg frame st.ignore
  | repeated (k : UInt32) : Outcome st msg frame ⟨st, st.openAck msg frame k, []⟩
  | exhausted (hid : st.allocateStreamId.1 = 0) :
      Outcome st msg frame (ignore { st with nextStreamId := st.allocateStreamId.2 })
  | opened {st₁ : StreamState} {pending : PendingP2pStreamEvent} (hid : st.allocateStreamId.1 ≠ 0)
      (hkind : pending.event.kind = .accepted) : Outcome st msg frame ⟨{ st with
        nextStreamId := st.allocateStreamId.2
        sessions := st.sessions.insert st.allocateStreamId.1 (acceptedSession msg frame) },
        st₁.openAck msg frame st.allocateStreamId.1, [pending]⟩
  | connected {k : UInt32} {s : P2pStreamSession} (hs : st.sessions[k]? = some s)
      (htuple : st.tupleMatches s msg = true) (hstream : s.fromStream frame = true) : Outcome st msg frame
        ⟨{ st with sessions := st.sessions.insert k (connectedSession s msg frame) }, none,
          [st.eventOf .connected k (connectedSession s msg frame) msg frame]⟩
  | control {k : UInt32} {s : P2pStreamSession} (hs : st.sessions[k]? = some s)
      (htuple : st.tupleMatches s msg = true) (hstream : s.fromStream frame = true)
      (hcontrol : frame.isOpen ≠ true ∧ frame.isOpenAck ≠ true ∧
        frame.has (p2pStreamFin ||| p2pStreamRst ||| p2pStreamData) = true) : Outcome st msg frame
        ⟨if controlKind frame = .data then st else { st with sessions := st.sessions.erase k }, none,
          [st.eventOf (controlKind frame) k s msg frame]⟩

theorem dispatch_outcome (st : StreamState) (msg : P2pDecoded) (frame : P2pStreamDecoded) :
    Outcome st msg frame (st.dispatchStreamFrame msg frame) := by
  unfold dispatchStreamFrame
  split_ifs with hopen hack hcontrol
  · unfold dispatchOpen
    split
    next k _ => exact .repeated k
    dsimp only
    split
    case isTrue hid => exact .exhausted hid
    case isFalse hid => exact .opened hid rfl
  · unfold dispatchOpenAck
    split
    next => exact .ignored
    next s hs =>
      split
      case isTrue hmatch => exact .connected hs hmatch.2.1 hmatch.2.2
      case isFalse => exact .ignored
  · unfold dispatchControl
    split
    next => exact .ignored
    split
    next => exact .ignored
    next s hs =>
      split
      case isTrue hmatch => exact .control hs hmatch.1 hmatch.2 ⟨hopen, hack, hcontrol⟩
      case isFalse => exact .ignored
  · exact .ignored

theorem dispatch_change (hframe : Receives op msg frame) (id : UInt32) :
    Change st op st.sessions[id]? (st.dispatchStreamFrame msg frame).state.sessions[id]? := by
  have h := dispatch_outcome st msg frame
  generalize st.dispatchStreamFrame msg frame = d at h ⊢
  cases h with
  | ignored | repeated | exhausted => exact .same _
  | opened hid _ => exact change_open hid id
  | connected hs htuple hstream =>
    refine change_insert ?_ id
    rw [hs]
    exact Change.connected hframe htuple hstream
  | control hs htuple hstream _ =>
    split
    case isTrue => exact .same _
    refine change_erase ?_ id
    rw [hs]
    exact Change.closed hframe htuple hstream

theorem openStream_change {dst : AddressBookEntry} {dstPort srcPort : UInt16} {resolved : Option Bytes} (id : UInt32) :
    Change st op st.sessions[id]? (st.openStream dst dstPort srcPort resolved).1.sessions[id]? := by
  unfold openStream
  split
  case isTrue => exact .same _
  split
  next => exact .same _
  next bound hbound =>
    dsimp only
    split
    case isTrue => exact .same _
    case isFalse hid => exact change_open hid id

theorem sendControl_change {k : UInt32} {flags : UInt8} {payload : Bytes} (id : UInt32) :
    Change st op st.sessions[id]? (st.sendControl k flags payload).1.sessions[id]? := by
  unfold sendControl
  split
  next => exact .same _
  next s hs =>
    refine change_insert ?_ id
    rw [hs]
    exact .counted s _

theorem retire_change (hlocal : ¬ IsReceive op) (k id : UInt32) :
    Change st op st.sessions[id]? (st.retire k).sessions[id]? := by
  refine change_erase ?_ id
  cases st.sessions[k]? with
  | none => exact .same _
  | some s => exact Change.retired s hlocal

theorem commit_change {p : PreparedP2p} (hlocal : ¬ IsReceive op) (hcurrent : st.actionCurrent p = true) (id : UInt32) :
    Change st op st.sessions[id]? (st.commit p).sessions[id]? := by
  unfold commit
  unfold actionCurrent at hcurrent
  split
  next session haction =>
    rw [haction] at hcurrent
    have hfree : st.sessions[p.streamId]? = none := ExtTreeMap.getElem?_eq_none (of_decide_eq_true hcurrent)
    refine change_insert ?_ id
    rw [hfree]
    exact .opened session
  next flags expected haction =>
    split
    case isTrue => exact retire_change hlocal p.streamId id
    split
    next s hs =>
      refine change_insert ?_ id
      rw [hs]
      exact .counted s _
    next => exact .same _

theorem tryQueue_change {n : ℕ} {current fits : Bool} (hlocal : ¬ IsReceive op) (id : UInt32) :
    Change st op st.sessions[id]? (st.tryQueue n current fits).sessions[id]? := by
  unfold tryQueue
  split
  next => exact .same _
  next p hp =>
    split
    case isTrue => exact .same _
    case isFalse hadmit =>
      rw [not_or, not_not] at hadmit
      exact commit_change hlocal hadmit.2.2.2.1 id

theorem prepareOpen_sessions {peer : AddressBookEntry} {peerPort localPort : UInt16} {resolved : Option Bytes} :
    (st.prepareOpen peer peerPort localPort resolved).sessions = st.sessions := by
  unfold prepareOpen
  split
  case isTrue => rfl
  split
  next => rfl
  split
  next => rfl
  next => rfl

theorem prepareControl_sessions {operation : P2pStreamOperation} {target : Option AddressBookEntry} :
    (st.prepareControl k operation target).sessions = st.sessions := by
  unfold prepareControl
  split
  next =>
    split
    case isTrue => rfl
    case isFalse => rfl
  next => rfl

/-- What a step does to a session. -/
theorem step_change (st : StreamState) (op : StreamOp) (id : UInt32) :
    Change st op st.sessions[id]? (st.step op).sessions[id]? := by
  cases op with
  | receive payload attributed replied accepts =>
    unfold step perform receive
    dsimp only
    split
    next => exact .same _
    next msg frame hframe =>
      split
      case isFalse => exact .same _
      case isTrue hattributed =>
        exact dispatch_change ⟨payload, replied, accepts, by rw [hattributed], hframe⟩ id
  | openStream dst dstPort srcPort resolved => exact openStream_change id
  | sendControl k flags payload => exact sendControl_change id
  | retire k => exact retire_change (by rintro ⟨_, _, _, _, h⟩; cases h) k id
  | prepareOpen peer peerPort localPort resolved =>
    change Change _ _ _ (st.prepareOpen peer peerPort localPort resolved).sessions[id]?
    rw [prepareOpen_sessions]
    exact .same _
  | prepareControl k operation target =>
    change Change _ _ _ (st.prepareControl k operation target).sessions[id]?
    rw [prepareControl_sessions]
    exact .same _
  | tryQueue n current fits => exact tryQueue_change (by rintro ⟨_, _, _, _, h⟩; cases h) id
  | bindPort port handler =>
    unfold step perform
    dsimp only
    split <;> exact .same _
  | clearPort | learn => exact .same _

/-- A bound session that is still there has kept its peer. -/
theorem Change.keeps_peer {y : Option P2pStreamSession} (h : Change st op (some s) y) (hy : y = some s')
    (hbound : s.Bound) : s'.peer = s.peer ∧ s'.Bound := by
  cases h with
  | same | counted => cases hy; exact ⟨rfl, hbound⟩
  | @connected _ msg frame hframe htuple hstream =>
    cases hy
    have hpeer := peer_eq_sender hbound htuple hstream
    have hknown : frame.sourceStreamId ≠ 0 := by
      have hid : s.peerStreamId = frame.sourceStreamId := congrArg Peer.streamId hpeer
      rw [← hid]
      exact hbound.2
    refine ⟨?_, rfl, hknown⟩
    rw [hpeer]
    unfold P2pStreamSession.peer sender at hpeer ⊢
    injection hpeer with hhost _ hlocal hport _
    unfold connectedSession
    rw [hhost, hlocal, hport]
  | closed | retired => cases hy

/-- A bound session that a received frame ends was ended by its peer. -/
theorem Change.ended_by_peer (h : Change st op (some s) none) (hop : IsReceive op) (hbound : s.Bound) :
    ∃ msg frame, Receives op msg frame ∧ sender msg frame = s.peer := by
  cases h with
  | closed hframe htuple hstream => exact ⟨_, _, hframe, (peer_eq_sender hbound htuple hstream).symm⟩
  | retired s hlocal => exact absurd hop hlocal

/-- Over a run in which the session is always there it keeps its peer. -/
theorem run_keeps_peer (es : List StreamOp) : ∀ {st : StreamState} {s s' : P2pStreamSession},
    st.sessions[id]? = some s → s.Bound → (∀ k ≤ es.length, id ∈ (before step st es k).sessions) →
    (run step st es).sessions[id]? = some s' → s'.peer = s.peer := by
  induction es with
  | nil =>
    intro st s s' hs _ _ hs'
    cases hs.symm.trans hs'
    rfl
  | cons op es ih =>
    intro st s s' hs hbound hthere hs'
    have hnext : id ∈ (st.step op).sessions := hthere 1 (by simp)
    have hs₁ : (st.step op).sessions[id]? = some (st.step op).sessions[id] := ExtTreeMap.getElem?_eq_some_getElem hnext
    have hchange := step_change st op id
    rw [hs, hs₁] at hchange
    obtain ⟨hpeer, hbound₁⟩ := hchange.keeps_peer rfl hbound
    rw [← hpeer]
    refine ih hs₁ hbound₁ ?_ hs'
    intro k hk
    exact hthere (k + 1) (by rw [length_cons]; omega)

/-! ### What reaches the handlers -/

theorem mem_callHandlers {accepts : ℕ → Bool} {call : ℕ × P2pStreamEvent} {calls : List (ℕ × P2pStreamEvent)}
    (h : call ∈ callHandlers accepts calls) : call ∈ calls := by
  induction calls with
  | nil => exact h
  | cons c calls ih =>
    unfold callHandlers at h
    rw [mem_cons] at h ⊢
    rcases h with h | h
    · exact .inl h
    · split at h
      · exact .inr (ih h)
      · exact absurd h not_mem_nil

/-- A handler is called with an event of the frame received. -/
theorem call_of_receive {call : ℕ × P2pStreamEvent} (hop : IsReceive op) (h : call ∈ (st.perform op).2.calls) :
    ∃ msg frame, Receives op msg frame ∧
      ∃ pending ∈ (st.dispatchStreamFrame msg frame).events, call.2 = pending.event := by
  obtain ⟨payload, attributed, replied, accepts, rfl⟩ := hop
  unfold perform receive at h
  dsimp only at h
  split at h
  next => exact absurd h not_mem_nil
  next msg frame hframe =>
    split at h
    case isFalse => exact absurd h not_mem_nil
    case isTrue hattributed =>
      subst hattributed
      refine ⟨msg, frame, ⟨payload, replied, accepts, rfl, hframe⟩, ?_⟩
      split at h
      case isFalse => exact absurd h not_mem_nil
      have hcall := mem_callHandlers h
      unfold callsOf at hcall
      rw [mem_flatMap] at hcall
      obtain ⟨pending, hpending, hmem⟩ := hcall
      rw [mem_map] at hmem
      obtain ⟨handler, -, rfl⟩ := hmem
      exact ⟨pending, hpending, rfl⟩

/-- Data, a close or a reset is for a session that the frame matches. -/
theorem dispatch_reaches {pending : PendingP2pStreamEvent} (h : pending ∈ (st.dispatchStreamFrame msg frame).events)
    (hkind : pending.event.kind ∈ [.data, .closed, .reset]) :
    ∃ s, st.sessions[pending.event.streamId]? = some s ∧ st.tupleMatches s msg = true ∧ s.fromStream frame = true := by
  have houtcome := dispatch_outcome st msg frame
  generalize st.dispatchStreamFrame msg frame = d at houtcome h
  cases houtcome with
  | ignored | repeated | exhausted => exact absurd h not_mem_nil
  | opened _ haccepted =>
    rw [mem_singleton.mp h, haccepted] at hkind
    exact absurd hkind (by decide)
  | connected _ _ _ =>
    rw [mem_singleton.mp h] at hkind
    exact absurd hkind (by simp [eventOf])
  | control hs htuple hstream _ =>
    rw [mem_singleton.mp h]
    exact ⟨_, hs, htuple, hstream⟩

/-! ### Repeated requests -/

/-- A request from the peer of a session finds a session. -/
theorem findSession_ne_none (hs : st.sessions[id]? = some s) (hpeer : s.peer = sender msg frame) :
    st.findSession msg frame ≠ none := by
  intro hnone
  unfold findSession at hnone
  rw [Option.map_eq_none_iff, List.find?_eq_none] at hnone
  exact hnone (id, s) (ExtTreeMap.mem_toList_iff_getElem?_eq_some.mpr hs) (answersTo_iff.mpr hpeer)

/-- Such a request changes nothing and is not accepted again. -/
theorem dispatchOpen_duplicate (hs : st.sessions[id]? = some s) (hpeer : s.peer = sender msg frame)
    (hopen : frame.isOpen = true) : (st.dispatchStreamFrame msg frame).state = st ∧
      (st.dispatchStreamFrame msg frame).events = [] := by
  unfold dispatchStreamFrame dispatchOpen
  rw [if_pos hopen]
  cases hfind : st.findSession msg frame with
  | none => exact absurd hfind (findSession_ne_none hs hpeer)
  | some k => exact ⟨rfl, rfl⟩

theorem step_receives (h : Receives op msg frame) : st.step op = (st.dispatchStreamFrame msg frame).state := by
  obtain ⟨payload, replied, accepts, rfl, hframe⟩ := h
  unfold step perform receive
  dsimp only
  rw [hframe]
  rfl

theorem Receives.unique {msg' : P2pDecoded} {frame' : P2pStreamDecoded} (h : Receives op msg frame)
    (h' : Receives op msg' frame') : msg' = msg ∧ frame' = frame := by
  obtain ⟨payload, replied, accepts, rfl, hframe⟩ := h
  obtain ⟨payload', replied', accepts', heq, hframe'⟩ := h'
  cases heq
  cases hframe.symm.trans hframe'
  exact ⟨rfl, rfl⟩

/-- The request opens the session `id`. -/
def Accepts (st : StreamState) (op : StreamOp) (id : UInt32) (msg : P2pDecoded) (frame : P2pStreamDecoded) : Prop :=
  Receives op msg frame ∧ frame.isOpen = true ∧ st.sessions[id]? = none ∧
    (st.step op).sessions[id]? = some (acceptedSession msg frame)

/-- Over every run: a received frame leaves the peer of a bound session alone; only a frame from that
peer's stream delivers data to it, closes it or resets it; and a request with a stream id that has
opened a session opens no other one, and is not announced as accepted again, as long as the session
exists. -/
theorem stream_binding (book : ExtTreeMap Bytes AddressBookEntry) (es : List StreamOp) :
    let st := run step (new book) es
    (∀ id session op, st.sessions[id]? = some session → session.Bound → IsReceive op →
      (∀ session', (st.step op).sessions[id]? = some session' → session'.peer = session.peer) ∧
      ((∃ call ∈ (st.perform op).2.calls, call.2.streamId = id ∧ call.2.kind ∈ [.data, .closed, .reset]) ∨
          (st.step op).sessions[id]? = none →
        ∃ msg frame, Receives op msg frame ∧ sender msg frame = session.peer)) ∧
    ∀ id es₁ request es₂ msg frame, es = es₁ ++ request :: es₂ →
      Accepts (run step (new book) es₁) request id msg frame → frame.sourceStreamId ≠ 0 →
      (∀ k ≤ es₂.length, id ∈ (before step ((run step (new book) es₁).step request) es₂ k).sessions) →
      ∀ op msg' frame', Receives op msg' frame' → frame'.isOpen = true → sender msg' frame' = sender msg frame →
        (st.step op).sessions = st.sessions ∧ ∀ call ∈ (st.perform op).2.calls, call.2.kind ≠ .accepted := by
  intro st
  refine ⟨?_, ?_⟩
  · intro id session op hsession hbound hop
    have hchange := step_change st op id
    rw [hsession] at hchange
    refine ⟨fun session' hsession' => (hchange.keeps_peer hsession' hbound).1, ?_⟩
    rintro (⟨call, hcall, hid, hkind⟩ | hended)
    · obtain ⟨msg, frame, hframe, pending, hpending, hevent⟩ := call_of_receive hop hcall
      rw [hevent] at hid hkind
      obtain ⟨s, hs, htuple, hstream⟩ := dispatch_reaches hpending hkind
      rw [hid] at hs
      cases hsession.symm.trans hs
      exact ⟨msg, frame, hframe, (peer_eq_sender hbound htuple hstream).symm⟩
    · rw [hended] at hchange
      exact hchange.ended_by_peer hop hbound
  · intro id es₁ request es₂ msg frame hes haccepts hknown hthere op msg' frame' hframe' hopen hsender
    obtain ⟨-, -, -, hsession₁⟩ := haccepts
    have hrun : st = run step ((run step (new book) es₁).step request) es₂ := by
      change run step (new book) es = _
      rw [hes, run_append, run_cons]
    have hlast : id ∈ st.sessions := by
      have h := hthere es₂.length (le_refl _)
      rw [before_length, ← hrun] at h
      exact h
    obtain ⟨session, hsession⟩ : ∃ session, st.sessions[id]? = some session :=
      ⟨_, ExtTreeMap.getElem?_eq_some_getElem hlast⟩
    have hpeer : session.peer = sender msg' frame' := by
      rw [hsender]
      have hend := hsession
      rw [hrun] at hend
      exact run_keeps_peer es₂ hsession₁ ⟨rfl, hknown⟩ hthere hend
    obtain ⟨hstate, hevents⟩ := dispatchOpen_duplicate hsession hpeer hopen
    refine ⟨by rw [step_receives hframe', hstate], ?_⟩
    intro call hcall
    have hop : IsReceive op := by
      obtain ⟨payload, replied, accepts, hop, -⟩ := hframe'
      exact ⟨payload, true, replied, accepts, hop⟩
    obtain ⟨msg'', frame'', hframe'', pending, hpending, -⟩ := call_of_receive hop hcall
    obtain ⟨rfl, rfl⟩ := hframe'.unique hframe''
    rw [hevents] at hpending
    exact absurd hpending not_mem_nil

/-- The payload of a frame from the host `b` at address 5, from its port 3 to port 7. -/
def frameFromPeer (flags : UInt8) (sourceStreamId destinationStreamId : UInt32) : Bytes :=
  (framePayload flags sourceStreamId destinationStreamId 0 []).flatMap fun payload =>
    match encodeP2pPayload [98] 5 3 7 payload with
    | .ok bytes => bytes
    | .error _ => []

/-- The receipt of such a frame. -/
def receiveFromPeer (flags : UInt8) (sourceStreamId destinationStreamId : UInt32) : StreamOp :=
  .receive (frameFromPeer flags sourceStreamId destinationStreamId) true true fun _ => true

/-- A router that listens at port 7 and has received these messages. -/
def listening (received : List StreamOp) : StreamState := run step (new ∅) (.bindPort 7 0 :: received)

/-- A request of stream 9 that opens session 1, received again. -/
theorem stream_binding_accepted :
    (listening [receiveFromPeer p2pStreamSyn 9 0]).sessions[(1 : UInt32)]? =
        some ⟨[98], 5, 7, 3, 9, 1, true, true⟩ ∧
      ((listening [receiveFromPeer p2pStreamSyn 9 0]).step (receiveFromPeer p2pStreamSyn 9 0)).sessions =
        (listening [receiveFromPeer p2pStreamSyn 9 0]).sessions := by
  have hframe : Receives (receiveFromPeer p2pStreamSyn 9 0) ⟨[98], 5, 3, 7, (frameFromPeer p2pStreamSyn 9 0).drop 16⟩
      ⟨p2pStreamSyn, 9, 0, 0, []⟩ := ⟨_, _, _, rfl, by decide +kernel⟩
  refine ⟨by decide +kernel, ?_⟩
  refine ((stream_binding ∅ [.bindPort 7 0, receiveFromPeer p2pStreamSyn 9 0]).2 1 [.bindPort 7 0]
    (receiveFromPeer p2pStreamSyn 9 0) [] _ _ rfl ⟨hframe, by decide +kernel, by decide +kernel, by decide +kernel⟩
    (by decide +kernel) ?_ _ _ _ hframe (by decide +kernel) rfl).1
  intro k hk
  have hzero : k = 0 := Nat.le_zero.mp hk
  subst hzero
  decide +kernel

/-- A request without a stream id opens session 1; an answer from the peer's stream 5 binds it; the
same request then opens session 2 and is announced as accepted, while session 1 exists. -/
theorem duplicate_request_accepted_again :
    (listening [receiveFromPeer p2pStreamSyn 0 0]).sessions[(1 : UInt32)]? =
        some ⟨[98], 5, 7, 3, 0, 1, true, true⟩ ∧
      (listening [receiveFromPeer p2pStreamSyn 0 0,
          receiveFromPeer (p2pStreamSyn ||| p2pStreamAck) 5 1]).sessions.toList =
        [(1, ⟨[98], 5, 7, 3, 5, 1, true, true⟩)] ∧
      ((listening [receiveFromPeer p2pStreamSyn 0 0,
          receiveFromPeer (p2pStreamSyn ||| p2pStreamAck) 5 1]).perform (receiveFromPeer p2pStreamSyn 0 0)).2.calls =
        [(0, ⟨.accepted, 2, 0, 0, [98], 5, 7, 3, []⟩)] ∧
      (listening [receiveFromPeer p2pStreamSyn 0 0,
          receiveFromPeer (p2pStreamSyn ||| p2pStreamAck) 5 1, receiveFromPeer p2pStreamSyn 0 0]).sessions.toList =
        [(1, ⟨[98], 5, 7, 3, 5, 1, true, true⟩), (2, ⟨[98], 5, 7, 3, 0, 1, true, true⟩)] := by
  refine ⟨by decide +kernel, by decide +kernel, by decide +kernel, by decide +kernel⟩

end StreamState

end SedsNet
