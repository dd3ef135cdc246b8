import Mathlib.Data.List.Nodup
import AppTraverse.Foundations.EffectLog
import AppTraverse.Wire.WritePump

/-!
# The write pump keeps order and never sticks

Frames leave the queue at its front or all at once, so that those which are not pongs leave in
the order in which they came.  A write token says how many writes there were, which is why no
callback but that of the active write finds its token.
-/

namespace AppTraverse

open Foundations

/-- Frames of every kind but pongs, which replace each other. -/
def withoutPongs (items : List PendingOut) : List PendingOut :=
  items.filter fun item => !decide (item.kind = .heartbeatPong)

theorem withoutPongs_append (items others : List PendingOut) :
    withoutPongs (items ++ others) = withoutPongs items ++ withoutPongs others :=
  List.filter_append ..

theorem withoutPongs_idem (items : List PendingOut) :
    withoutPongs (withoutPongs items) = withoutPongs items := by
  simp [withoutPongs, List.filter_filter]

/-- The frames that were handed to `Write`. -/
def handedFrames (departed : List (PendingOut × Departure)) : List PendingOut :=
  (departed.filter fun entry => decide (entry.2 = .handed)).map Prod.fst

theorem handedFrames_append (departed others : List (PendingOut × Departure)) :
    handedFrames (departed ++ others) = handedFrames departed ++ handedFrames others := by
  unfold handedFrames
  rw [List.filter_append, List.map_append]

/-- Frames that left the queue otherwise. -/
theorem handedFrames_departures {departure : Departure} (items : List PendingOut)
    (hother : departure ≠ .handed) :
    handedFrames (items.map fun item => (item, departure)) = [] := by
  unfold handedFrames
  rw [List.filter_map]
  simp [hother]

theorem map_fst_departures (items : List PendingOut) (departure : Departure) :
    (items.map fun item => (item, departure)).map Prod.fst = items := by
  rw [List.map_map]
  exact List.map_id _

namespace PeerState

theorem toNat_token {n : Nat} (hn : n < 2 ^ 64) : (UInt64.ofNat n).toNat = n :=
  UInt64.toNat_ofNat_of_lt' hn

/-- What the active write is, and what it is not. -/
def ActiveWrite (peer : PeerState) : Prop :=
  (peer.activeWriteToken = 0 ∧ peer.outstanding = []) ∨
    (peer.activeWriteToken ≠ 0 ∧ peer.stream = true ∧ ∃ write, peer.outstanding = [write] ∧
      peer.writes.getLast? = some write ∧ write.token = peer.activeWriteToken ∧
      write.incarnation = peer.channelIncarnation ∧ write.item.kind = peer.activeKind ∧
      write.item.bytes = peer.activePayload)

/-- What holds between the steps.  The tokens are numbers of 64 bits, so that the active write
is known as long as there were fewer writes than that. -/
structure IsSound (peer : PeerState) : Prop where
  tokens : peer.writes.map IssuedWrite.token =
    (List.range peer.writes.length).map fun n => UInt64.ofNat (n + 1)
  next : peer.nextWriteToken = UInt64.ofNat (peer.writes.length + 1)
  active : peer.writes.length < 2 ^ 64 → peer.ActiveWrite
  order : withoutPongs (peer.departed.map Prod.fst ++ peer.pendingOut) =
    withoutPongs peer.accepted
  handed : peer.writes.map IssuedWrite.item = handedFrames peer.departed
  tickets : ((peer.accepted ++ peer.coalesced).map PendingOut.ticket).Perm
    (List.range peer.nextTicket)
  notice : peer.terminalNoticePending = true → ∃ notice, peer.terminalNotice = some notice ∧
    notice.token = peer.activeWriteToken ∧ notice.incarnation = peer.channelIncarnation

variable {peer next : PeerState}

namespace IsSound

theorem initial : ({} : PeerState).IsSound where
  tokens := rfl
  next := rfl
  active _ := Or.inl ⟨rfl, rfl⟩
  order := rfl
  handed := rfl
  tickets := List.Perm.refl _
  notice hpending := nomatch hpending

theorem push (h : peer.IsSound) (kind : AetherFrameKind) (bytes : Bytes) :
    (peer.push kind bytes).IsSound where
  tokens := h.tokens
  next := h.next
  active := h.active
  order := by
    show withoutPongs (peer.departed.map Prod.fst ++
      (peer.pendingOut ++ [⟨peer.nextTicket, kind, bytes⟩])) =
        withoutPongs (peer.accepted ++ [⟨peer.nextTicket, kind, bytes⟩])
    rw [← List.append_assoc, withoutPongs_append, h.order, withoutPongs_append]
  handed := h.handed
  tickets := by
    show ((peer.accepted ++ [_] ++ peer.coalesced).map PendingOut.ticket).Perm
      (List.range (peer.nextTicket + 1))
    rw [List.range_succ, List.append_assoc, List.map_append, List.singleton_append, List.map_cons]
    apply List.perm_middle.trans
    rw [← List.map_append]
    exact (h.tickets.cons _).trans (List.perm_append_singleton _ _).symm
  notice := h.notice

theorem queuePending (h : peer.IsSound) (kind : AetherFrameKind) (bytes : Bytes) :
    (peer.queuePending kind bytes).IsSound := by
  unfold PeerState.queuePending
  split
  case isTrue =>
    refine ⟨h.tokens, h.next, h.active, h.order, h.handed, ?_, h.notice⟩
    show ((peer.accepted ++ (peer.coalesced ++ [_])).map PendingOut.ticket).Perm
      (List.range (peer.nextTicket + 1))
    rw [← List.append_assoc, List.map_append, List.range_succ]
    exact h.tickets.append_right _
  case isFalse => exact h.push kind bytes

theorem scheduleHeartbeatPing (h : peer.IsSound) (nonce : UInt64) :
    (peer.scheduleHeartbeatPing nonce).IsSound := by
  unfold PeerState.scheduleHeartbeatPing
  split
  case isTrue => exact h
  case isFalse =>
  split
  case isTrue => exact h
  case isFalse => exact h.queuePending _ _

theorem queuePong (h : peer.IsSound) (pongBytes : Bytes) : (peer.queuePong pongBytes).IsSound := by
  unfold PeerState.queuePong
  split
  case isTrue => exact h
  case isFalse =>
    apply IsSound.push
    refine ⟨h.tokens, h.next, h.active, ?_, h.handed, h.tickets, h.notice⟩
    show withoutPongs (peer.departed.map Prod.fst ++ withoutPongs peer.pendingOut) =
      withoutPongs peer.accepted
    rw [withoutPongs_append, withoutPongs_idem, ← withoutPongs_append, h.order]

theorem onStreamData (h : peer.IsSound) {data : Bytes}
    (hdata : peer.onStreamData data = .ok next) : next.IsSound := by
  unfold PeerState.onStreamData at hdata
  obtain ⟨⟨accepted, frame⟩, -, hdata⟩ := except_bind_eq_ok_iff.mp hdata
  dsimp only at hdata
  split at hdata
  case isTrue =>
    obtain ⟨nonce, -, hdata⟩ := except_bind_eq_ok_iff.mp hdata
    cases hdata
    exact h.queuePong _
  case isFalse =>
    cases hdata
    exact h

theorem bindPeerStream (h : peer.IsSound) : peer.bindPeerStream.IsSound where
  tokens := h.tokens
  next := h.next
  active _ := Or.inl ⟨rfl, rfl⟩
  order := h.order
  handed := h.handed
  tickets := h.tickets
  notice hpending := nomatch hpending

theorem closePeer (h : peer.IsSound) : peer.closePeer.IsSound where
  tokens := h.tokens
  next := h.next
  active _ := Or.inl ⟨rfl, rfl⟩
  order := by
    show withoutPongs ((peer.departed ++ peer.pendingOut.map fun item =>
      (item, Departure.closed)).map Prod.fst ++ []) = withoutPongs peer.accepted
    rw [List.append_nil, List.map_append, map_fst_departures, h.order]
  handed := by
    show _ = handedFrames (peer.departed ++ peer.pendingOut.map fun item =>
      (item, Departure.closed))
    rw [handedFrames_append, handedFrames_departures _ (by decide), List.append_nil]
    exact h.handed
  tickets := h.tickets
  notice hpending := nomatch hpending

theorem applyWriteStatus (h : peer.IsSound) (token incarnation : UInt64) (status : WriteStatus) :
    (peer.applyWriteStatus token incarnation status).IsSound := by
  unfold PeerState.applyWriteStatus
  split
  case isTrue => exact h
  case isFalse hincarnation =>
  split
  case isTrue => exact h
  case isFalse htoken =>
    refine ⟨h.tokens, h.next, h.active, h.order, h.handed, h.tickets, ?_⟩
    intro _
    exact ⟨_, rfl, (not_not.mp htoken).symm, (not_not.mp hincarnation).symm⟩

/-- The slot of the notice is read. -/
theorem noticeTaken (h : peer.IsSound) (notice : Option TerminalWriteNotice) :
    IsSound { peer with terminalNoticePending := false, terminalNotice := notice } :=
  ⟨h.tokens, h.next, h.active, h.order, h.handed, h.tickets, fun hpending => nomatch hpending⟩

theorem finishWrite (h : peer.IsSound) {notice : TerminalWriteNotice}
    (hquiet : peer.terminalNoticePending = false)
    (htoken : notice.token = peer.activeWriteToken) : (peer.finishWrite notice).IsSound := by
  refine ⟨h.tokens, h.next, ?_, h.order, h.handed, h.tickets, ?_⟩
  case refine_2 =>
    intro hpending
    exact absurd (hpending.symm.trans hquiet) (by simp)
  intro hfew
  refine Or.inl ⟨rfl, ?_⟩
  show peer.outstanding.filter (fun write => !decide (write.token = notice.token)) = []
  rcases h.active hfew with ⟨-, hnone⟩ | ⟨-, -, write, hone, -, hwrite, -⟩
  · rw [hnone]
    rfl
  · rw [hone, List.filter_cons_of_neg (by simp [hwrite, htoken])]
    rfl

theorem processWriteNotice (h : peer.IsSound) : peer.processWriteNotice.IsSound := by
  unfold PeerState.processWriteNotice
  split
  case isTrue => exact h
  case isFalse =>
  split
  case h_1 => exact h.noticeTaken _
  case h_2 notice hnotice =>
  dsimp only
  split
  case isTrue => exact h.noticeTaken _
  case isFalse =>
  split
  case isTrue => exact h.noticeTaken _
  case isFalse hmatches =>
    obtain ⟨-, htoken⟩ := not_or.mp hmatches
    exact (h.noticeTaken none).finishWrite rfl (not_not.mp htoken)

/-- Frames at the front of the queue are dropped as oversize. -/
theorem dropOversize (h : peer.IsSound) {dropped rest : List PendingOut}
    (hpending : peer.pendingOut = dropped ++ rest) :
    IsSound { peer with
      departed := peer.departed ++ dropped.map fun item => (item, .oversize)
      pendingOut := rest } where
  tokens := h.tokens
  next := h.next
  active := h.active
  order := by
    show withoutPongs ((peer.departed ++ dropped.map fun item =>
      (item, Departure.oversize)).map Prod.fst ++ rest) = withoutPongs peer.accepted
    rw [List.map_append, map_fst_departures, List.append_assoc, ← hpending, h.order]
  handed := by
    show _ = handedFrames (peer.departed ++ dropped.map fun item => (item, Departure.oversize))
    rw [handedFrames_append, handedFrames_departures _ (by decide), List.append_nil]
    exact h.handed
  tickets := h.tickets
  notice := h.notice

/-- `Write` in a peer that has no active write. -/
theorem write (h : peer.IsSound) {item : PendingOut} {rest : List PendingOut} (finished : Bool)
    (hpending : peer.pendingOut = item :: rest) (hstream : peer.stream = true)
    (hidle : peer.activeWriteToken = 0) (hquiet : peer.terminalNoticePending = false) :
    (peer.write item rest finished).IsSound where
  tokens := by
    show (peer.writes ++ [_]).map IssuedWrite.token =
      (List.range (peer.writes ++ [_]).length).map fun n => UInt64.ofNat (n + 1)
    rw [List.map_append, List.length_append, List.length_singleton, List.range_succ,
      List.map_append, h.tokens]
    show _ ++ [peer.nextWriteToken] = _ ++ [UInt64.ofNat (peer.writes.length + 1)]
    rw [h.next]
  next := by
    show peer.nextWriteToken + 1 = UInt64.ofNat ((peer.writes ++ [_]).length + 1)
    rw [h.next, List.length_append, List.length_singleton, UInt64.ofNat_add (_ + 1)]
    rfl
  active := by
    show (peer.writes ++ [_]).length < 2 ^ 64 → _
    rw [List.length_append, List.length_singleton]
    intro hfew
    have hnone : peer.outstanding = [] := by
      rcases h.active (by omega) with ⟨-, hnone⟩ | ⟨hactive, -⟩
      · exact hnone
      · exact absurd hidle hactive
    have htoken : peer.nextWriteToken ≠ 0 := by
      rw [h.next]
      intro hzero
      have hsize := congrArg UInt64.toNat hzero
      rw [toNat_token (by omega)] at hsize
      simp at hsize
    refine Or.inr ⟨htoken, hstream, ⟨peer.nextWriteToken, peer.channelIncarnation, item⟩, ?_, ?_,
      rfl, rfl, rfl, rfl⟩
    · show peer.outstanding ++ [_] = _
      rw [hnone, List.nil_append]
    · show (peer.writes ++ [_]).getLast? = _
      rw [List.getLast?_concat]
  order := by
    show withoutPongs ((peer.departed ++ [(item, Departure.handed)]).map Prod.fst ++ rest) =
      withoutPongs peer.accepted
    rw [List.map_append, List.append_assoc, ← h.order, hpending]
    rfl
  handed := by
    show (peer.writes ++ [_]).map IssuedWrite.item =
      handedFrames (peer.departed ++ [(item, Departure.handed)])
    rw [List.map_append, handedFrames_append, h.handed]
    rfl
  tickets := h.tickets
  notice := by
    show (finished || peer.terminalNoticePending) = true → _
    rw [hquiet, Bool.or_false]
    rintro rfl
    exact ⟨_, rfl, rfl, rfl⟩

end IsSound

theorem processWriteNotice_pending : peer.processWriteNotice.terminalNoticePending = false := by
  unfold processWriteNotice
  split
  case isTrue hquiet => simpa using hquiet
  case isFalse =>
  split
  case h_1 => rfl
  case h_2 =>
    dsimp only
    split
    case isTrue => rfl
    case isFalse =>
    split
    case isTrue => rfl
    case isFalse => rfl

/-- What `try_start_write` does: frames are dropped at the front of the queue, and then the rest
stays pending, or the first of it is written. -/
theorem tryStartWriteLoop_cases (info : StreamInfo) (finished : Bool) (items : List PendingOut) :
    ∀ peer : PeerState, ∃ dropped rest : List PendingOut, items = dropped ++ rest ∧
      (∀ item ∈ dropped, item.isOversize info = true) ∧
      ((tryStartWriteLoop info finished peer items =
          { peer with
            departed := peer.departed ++ dropped.map fun item => (item, .oversize)
            pendingOut := rest } ∧
          (rest = [] ∨ info.recElementSize = 0 ∨ info.isWritable = false)) ∨
        ∃ item tail, rest = item :: tail ∧ item.isOversize info = false ∧
          tryStartWriteLoop info finished peer items =
            PeerState.write { peer with
              departed := peer.departed ++ dropped.map fun item => (item, .oversize)
              pendingOut := rest } item tail finished) := by
  induction items with
  | nil =>
      intro peer
      refine ⟨[], [], rfl, by simp, Or.inl ⟨?_, Or.inl rfl⟩⟩
      simp [tryStartWriteLoop]
  | cons item rest ih =>
      intro peer
      unfold tryStartWriteLoop
      by_cases hwait : (decide (info.recElementSize = 0) || !info.isWritable) = true
      · rw [if_pos hwait]
        refine ⟨[], item :: rest, rfl, by simp, Or.inl ⟨by simp, Or.inr ?_⟩⟩
        simpa using hwait
      · rw [if_neg hwait]
        by_cases hsize : item.isOversize info = true
        · rw [if_pos hsize]
          obtain ⟨dropped, left, hitems, hdropped, hresult⟩ :=
            ih { peer with departed := peer.departed ++ [(item, .oversize)] }
          refine ⟨item :: dropped, left, by rw [hitems, List.cons_append], ?_, ?_⟩
          · intro other hother
            rcases List.mem_cons.mp hother with rfl | hother
            · exact hsize
            · exact hdropped other hother
          · simpa using hresult
        · rw [if_neg hsize]
          refine ⟨[], item :: rest, rfl, by simp, Or.inr ⟨item, rest, rfl, ?_, ?_⟩⟩
          · simpa using hsize
          · simp [PeerState.write]

namespace IsSound

theorem tryStartWrite (h : peer.IsSound) (hquiet : peer.terminalNoticePending = false)
    (info : StreamInfo) (finished : Bool) : (peer.tryStartWrite info finished).IsSound := by
  unfold PeerState.tryStartWrite
  split
  case isTrue => exact h
  case isFalse hready =>
    obtain ⟨hidle, hstream⟩ := not_or.mp hready
    obtain ⟨dropped, rest, hpending, -, ⟨hresult, -⟩ | ⟨item, tail, rfl, -, hresult⟩⟩ :=
      tryStartWriteLoop_cases info finished peer.pendingOut peer
    · rw [hresult]
      exact h.dropOversize hpending
    · rw [hresult]
      exact (h.dropOversize hpending).write finished rfl (by simpa using hstream)
        (not_not.mp hidle) hquiet

theorem step (h : peer.IsSound) {action : PeerAction} (hstep : peer.step action = some next) :
    next.IsSound := by
  cases action with
  | send bytes =>
      cases hstep
      exact h.queuePending _ bytes
  | sendControl bytes =>
      cases hstep
      exact h.queuePending _ bytes
  | heartbeat nonce =>
      cases hstep
      exact h.scheduleHeartbeatPing nonce
  | streamData data =>
      exact h.onStreamData (toOption_eq_some_iff.mp hstep)
  | bindStream =>
      cases hstep
      exact h.bindPeerStream
  | close =>
      cases hstep
      exact h.closePeer
  | writeStatus token incarnation status =>
      cases hstep
      exact h.applyWriteStatus token incarnation status
  | pump info finished =>
      cases hstep
      exact h.processWriteNotice.tryStartWrite processWriteNotice_pending info finished

theorem run (h : peer.IsSound) {actions : List PeerAction}
    (hrun : runActions PeerState.step peer actions = some next) : next.IsSound :=
  runActions_preserves IsSound (fun _ _ _ hsound => hsound.step) h hrun

theorem outstanding_le (h : peer.IsSound) (hfew : peer.writes.length < 2 ^ 64) :
    peer.outstanding.length ≤ 1 ∧ (peer.outstanding = [] ↔ peer.activeWriteToken = 0) := by
  rcases h.active hfew with ⟨hidle, hnone⟩ | ⟨hactive, -, write, hone, -⟩
  · simp [hidle, hnone]
  · simp [hactive, hone]

theorem tokens_increase (h : peer.IsSound) (hfew : peer.writes.length < 2 ^ 64) :
    (peer.writes.map IssuedWrite.token).Pairwise (· < ·) := by
  rw [h.tokens, List.pairwise_map]
  apply List.pairwise_lt_range.imp_of_mem
  intro first second hfirst hsecond hlt
  rw [List.mem_range] at hfirst hsecond
  rw [UInt64.lt_iff_toNat_lt, toNat_token (by omega), toNat_token (by omega)]
  omega

/-- No token is the number of no write. -/
theorem token_ne_zero (h : peer.IsSound) (hfew : peer.writes.length < 2 ^ 64)
    {write : IssuedWrite} (hwrite : write ∈ peer.writes) : write.token ≠ 0 := by
  have htoken := List.mem_map_of_mem (f := IssuedWrite.token) hwrite
  rw [h.tokens] at htoken
  obtain ⟨n, hn, htoken⟩ := List.mem_map.mp htoken
  rw [List.mem_range] at hn
  intro hzero
  have hsize := congrArg UInt64.toNat (htoken.trans hzero)
  rw [toNat_token (by omega)] at hsize
  simp at hsize

/-- A write that is over, or whose stream is gone, has another token than the active write. -/
theorem token_ne_active (h : peer.IsSound) (hfew : peer.writes.length < 2 ^ 64)
    {write : IssuedWrite} (hwrite : write ∈ peer.writes) (hover : write ∉ peer.outstanding) :
    peer.activeWriteToken ≠ write.token := by
  rcases h.active hfew with ⟨hidle, -⟩ | ⟨-, -, last, hone, hlast, htoken, -⟩
  · rw [hidle]
    exact (h.token_ne_zero hfew hwrite).symm
  · rw [← htoken]
    intro hsame
    obtain ⟨before, hwrites⟩ := List.getLast?_eq_some_iff.mp hlast
    have hnodup := (h.tokens_increase hfew).imp (fun hlt => UInt64.ne_of_lt hlt)
    have heq : last = write :=
      List.inj_on_of_nodup_map hnodup (hwrites ▸ List.mem_concat_self) hwrite hsame
    apply hover
    rw [hone, heq]
    exact List.mem_singleton_self write

theorem applyWriteStatus_stale (h : peer.IsSound) (hfew : peer.writes.length < 2 ^ 64)
    {write : IssuedWrite} (hwrite : write ∈ peer.writes) (hover : write ∉ peer.outstanding)
    (incarnation : UInt64) (status : WriteStatus) :
    peer.applyWriteStatus write.token incarnation status = peer := by
  unfold PeerState.applyWriteStatus
  split
  case isTrue => rfl
  case isFalse => exact if_pos (h.token_ne_active hfew hwrite hover)

/-- A frame has one ticket, and it leaves the queue once. -/
theorem tickets_nodup (h : peer.IsSound) :
    ((withoutPongs (peer.departed.map Prod.fst ++ peer.pendingOut)).map
      PendingOut.ticket).Nodup := by
  rw [h.order]
  have hall := h.tickets.nodup_iff.mpr List.nodup_range
  rw [List.map_append] at hall
  exact (List.nodup_append.mp hall).1.sublist ((List.filter_sublist).map _)

end IsSound

/-- A pump round frees the slot, so that the next frame that fits can start. -/
def FreesSlot (peer : PeerState) : Prop :=
  peer.processWriteNotice.activeWriteToken = 0 ∧
  peer.processWriteNotice.pendingOut = peer.pendingOut ∧
  ∀ info finished, peer.stream = true → info.recElementSize ≠ 0 → info.isWritable = true →
    ((∀ item ∈ peer.pendingOut, item.isOversize info = true) ∧
        (peer.pump info finished).pendingOut = []) ∨
      ∃ dropped item rest, peer.pendingOut = dropped ++ item :: rest ∧
        (∀ other ∈ dropped, other.isOversize info = true) ∧ item.isOversize info = false ∧
        (peer.pump info finished).pendingOut = rest ∧
        (peer.pump info finished).writes =
          peer.writes ++ [⟨peer.nextWriteToken, peer.channelIncarnation, item⟩]

/-- A notice that is there when the pump comes round is of the active write. -/
theorem processWriteNotice_ends (h : peer.IsSound) (hpending : peer.terminalNoticePending = true) :
    peer.processWriteNotice = { peer with
        terminalNoticePending := false
        terminalNotice := none
        activeWriteToken := 0
        activePayload := peer.processWriteNotice.activePayload
        outstanding := peer.processWriteNotice.outstanding } := by
  obtain ⟨notice, hnotice, htoken, hincarnation⟩ := h.notice hpending
  by_cases hidle : peer.activeWriteToken = 0
  · simp [processWriteNotice, hpending, hnotice, hincarnation, hidle]
  · simp [processWriteNotice, hpending, hnotice, hincarnation, hidle, htoken, finishWrite]

/-- An idle peer that has a stream which takes elements starts the first frame that fits. -/
theorem tryStartWrite_writable {info : StreamInfo} (hidle : peer.activeWriteToken = 0)
    (hstream : peer.stream = true) (hsize : info.recElementSize ≠ 0)
    (hwritable : info.isWritable = true) (finished : Bool) :
    let started := peer.tryStartWrite info finished
    ((∀ item ∈ peer.pendingOut, item.isOversize info = true) ∧ started.pendingOut = []) ∨
      ∃ dropped item rest, peer.pendingOut = dropped ++ item :: rest ∧
        (∀ other ∈ dropped, other.isOversize info = true) ∧ item.isOversize info = false ∧
        started.pendingOut = rest ∧
        started.writes =
          peer.writes ++ [⟨peer.nextWriteToken, peer.channelIncarnation, item⟩] := by
  intro started
  have hloop : started = tryStartWriteLoop info finished peer peer.pendingOut :=
    if_neg (by simp [hidle, hstream])
  obtain ⟨dropped, rest, hpending, hdropped, ⟨hresult, hrest⟩ | ⟨item, tail, rfl, hfits, hresult⟩⟩ :=
    tryStartWriteLoop_cases info finished peer.pendingOut peer
  · have hnil : rest = [] := by
      rcases hrest with hnil | hzero | hwait
      · exact hnil
      · exact absurd hzero hsize
      · simp [hwritable] at hwait
    subst hnil
    refine Or.inl ⟨?_, ?_⟩
    · rw [hpending, List.append_nil]
      exact hdropped
    · rw [hloop, hresult]
  · refine Or.inr ⟨dropped, item, tail, hpending, hdropped, hfits, ?_, ?_⟩
    · rw [hloop, hresult]
      rfl
    · rw [hloop, hresult]
      rfl

theorem IsSound.freesSlot (h : peer.IsSound) (hpending : peer.terminalNoticePending = true) :
    peer.FreesSlot := by
  have hends := processWriteNotice_ends h hpending
  have hidle : peer.processWriteNotice.activeWriteToken = 0 := by rw [hends]
  have hqueue : peer.processWriteNotice.pendingOut = peer.pendingOut := by rw [hends]
  have hwrites : peer.processWriteNotice.writes = peer.writes := by rw [hends]
  have htoken : peer.processWriteNotice.nextWriteToken = peer.nextWriteToken := by rw [hends]
  have hsame : peer.processWriteNotice.channelIncarnation = peer.channelIncarnation := by rw [hends]
  refine ⟨hidle, hqueue, ?_⟩
  intro info finished hstream hsize hwritable
  have hstreamKept : peer.processWriteNotice.stream = true := by
    rw [hends]
    exact hstream
  have hstarts := tryStartWrite_writable hidle hstreamKept hsize hwritable finished
  rw [hqueue, hwrites, htoken, hsame] at hstarts
  exact hstarts

/-- The terminal status of the active write is noticed. -/
theorem applyWriteStatus_active (status : WriteStatus) :
    (peer.applyWriteStatus peer.activeWriteToken peer.channelIncarnation
      status).terminalNoticePending = true := by
  simp [applyWriteStatus]

/-- A frame that is queued comes last, or it is equal to one that is pending or active. -/
theorem IsSound.queuePending_fate (h : peer.IsSound) (hfew : peer.writes.length < 2 ^ 64)
    (kind : AetherFrameKind) (bytes : Bytes) :
    (peer.queuePending kind bytes = peer.push kind bytes) ∨
      ((peer.queuePending kind bytes).coalesced =
          peer.coalesced ++ [⟨peer.nextTicket, kind, bytes⟩] ∧
        ((∃ item ∈ peer.pendingOut, item.kind = kind ∧ item.bytes = bytes) ∨
          ∃ write ∈ peer.outstanding, write.item.kind = kind ∧ write.item.bytes = bytes)) := by
  by_cases hsame : peer.samePending kind bytes = true
  · refine Or.inr ⟨by rw [PeerState.queuePending, if_pos hsame], ?_⟩
    unfold samePending at hsame
    rcases Bool.or_eq_true_iff.mp hsame with hactive | hqueued
    · right
      obtain ⟨⟨hactive, hkind⟩, hbytes⟩ : (peer.activeWriteToken ≠ 0 ∧ peer.activeKind = kind) ∧
          peer.activePayload = bytes := by simpa using hactive
      rcases h.active hfew with ⟨hidle, -⟩ | ⟨-, -, write, hone, -, -, -, hwriteKind, hwriteBytes⟩
      · exact absurd hidle hactive
      · refine ⟨write, ?_, hwriteKind.trans hkind, hwriteBytes.trans hbytes⟩
        rw [hone]
        exact List.mem_singleton_self write
    · left
      simpa using hqueued
  · exact Or.inl (if_neg hsame)

end PeerState

/-- In every run the frames leave the queue in the order in which they came, each of them once.
As long as there are fewer than `2 ^ 64` writes, at most one is outstanding, the tokens increase,
callbacks of other writes change nothing, and a terminal status frees the slot. -/
theorem writePump_keepsOrder {final : PeerState} {actions : List PeerAction}
    (hrun : runActions PeerState.step {} actions = some final) :
    (withoutPongs (final.departed.map Prod.fst ++ final.pendingOut) =
        withoutPongs final.accepted ∧
      ((withoutPongs (final.departed.map Prod.fst ++ final.pendingOut)).map
        PendingOut.ticket).Nodup ∧
      final.writes.map IssuedWrite.item = handedFrames final.departed ∧
      ((final.accepted ++ final.coalesced).map PendingOut.ticket).Perm
        (List.range final.nextTicket)) ∧
    (∀ token incarnation status,
      (token, incarnation) ≠ (final.activeWriteToken, final.channelIncarnation) →
        final.applyWriteStatus token incarnation status = final) ∧
    (final.terminalNoticePending = true → final.FreesSlot) ∧
    (final.writes.length < 2 ^ 64 →
      (final.outstanding.length ≤ 1 ∧
        (final.outstanding = [] ↔ final.activeWriteToken = 0)) ∧
      (final.writes.map IssuedWrite.token).Pairwise (· < ·) ∧
      (∀ write ∈ final.writes, write ∉ final.outstanding → ∀ incarnation status,
        final.applyWriteStatus write.token incarnation status = final) ∧
      (∀ kind bytes, final.queuePending kind bytes = final.push kind bytes ∨
        ((final.queuePending kind bytes).coalesced =
            final.coalesced ++ [⟨final.nextTicket, kind, bytes⟩] ∧
          ((∃ item ∈ final.pendingOut, item.kind = kind ∧ item.bytes = bytes) ∨
            ∃ write ∈ final.outstanding, write.item.kind = kind ∧ write.item.bytes = bytes))) ∧
      (final.activeWriteToken ≠ 0 → final.stream = true ∧ ∀ status,
        (final.applyWriteStatus final.activeWriteToken final.channelIncarnation
          status).FreesSlot)) := by
  have hsound := PeerState.IsSound.initial.run hrun
  refine ⟨⟨hsound.order, hsound.tickets_nodup, hsound.handed, hsound.tickets⟩, ?_,
    hsound.freesSlot, ?_⟩
  · intro token incarnation status hstale
    unfold PeerState.applyWriteStatus
    split
    case isTrue => rfl
    case isFalse hincarnation =>
    split
    case isTrue => rfl
    case isFalse htoken =>
      exact absurd (by rw [not_not.mp hincarnation, not_not.mp htoken]) hstale
  · intro hfew
    refine ⟨hsound.outstanding_le hfew, hsound.tokens_increase hfew, ?_,
      hsound.queuePending_fate hfew, ?_⟩
    · intro write hwrite hover
      exact hsound.applyWriteStatus_stale hfew hwrite hover
    · intro hactive
      rcases hsound.active hfew with ⟨hidle, -⟩ | ⟨-, hstream, -⟩
      · exact absurd hidle hactive
      · refine ⟨hstream, fun status => ?_⟩
        exact (hsound.applyWriteStatus _ _ status).freesSlot
          (PeerState.applyWriteStatus_active status)

/-- A stream that takes elements of any size. -/
def writableStream : StreamInfo :=
  ⟨1024, 0, true⟩

/-- A frame is sent twice, and the stream is bound again while it is written. -/
def reboundWhileActive : List PeerAction :=
  [.send [1], .bindStream, .send [1], .pump writableStream false, .send [1], .sendControl [2],
    .bindStream, .writeStatus 1 1 .success, .pump writableStream false,
    .writeStatus 2 2 .success]

theorem reboundWhileActive_keepsOrder : ∃ final,
    runActions PeerState.step {} reboundWhileActive = some final ∧
      final.writes.map IssuedWrite.item = [⟨0, .application, [1]⟩, ⟨3, .control, [2]⟩] ∧
      (final.writes.map IssuedWrite.token).Pairwise (· < ·) ∧ final.FreesSlot := by
  have hseen : (runActions PeerState.step {} reboundWhileActive).map
      (fun final => (final.writes.map IssuedWrite.item, final.terminalNoticePending)) =
        some ([⟨0, .application, [1]⟩, ⟨3, .control, [2]⟩], true) := by
    decide +kernel
  obtain ⟨final, hrun, hfinal⟩ := Option.map_eq_some_iff.mp hseen
  obtain ⟨hwrites, hpending⟩ := Prod.mk.inj hfinal
  obtain ⟨-, -, hfrees, hfewer⟩ := writePump_keepsOrder hrun
  have hlength : final.writes.length = 2 := by
    rw [← List.length_map (f := IssuedWrite.item), hwrites]
    rfl
  obtain ⟨-, htokens, -⟩ := hfewer (by omega)
  exact ⟨final, hrun, hwrites, htokens, hfrees hpending⟩

/-- The frame is pushed when nothing is pending or active. -/
def writeCycle : List PeerAction :=
  [.pump writableStream true, .send [0], .pump writableStream true]

/-- Every write was finished when it was issued, and no frame waits. -/
structure PeerState.HasWritten (peer : PeerState) (count : Nat) : Prop where
  sound : peer.IsSound
  writes : peer.writes.length = count
  quiet : peer.pendingOut = []
  stream : peer.stream = true
  idle : peer.activeWriteToken = 0 ∨ peer.terminalNoticePending = true

/-- A pump round in which no frame waits. -/
theorem PeerState.HasWritten.pump {peer : PeerState} {count : Nat} (h : peer.HasWritten count) :
    (peer.pump writableStream true).HasWritten count ∧
      (peer.pump writableStream true).activeWriteToken = 0 ∧
      (peer.pump writableStream true).terminalNoticePending = false := by
  have hends : peer.processWriteNotice.activeWriteToken = 0 ∧
      peer.processWriteNotice.pendingOut = [] ∧ peer.processWriteNotice.stream = true ∧
      peer.processWriteNotice.writes = peer.writes := by
    by_cases hpending : peer.terminalNoticePending = true
    · rw [processWriteNotice_ends h.sound hpending]
      exact ⟨rfl, h.quiet, h.stream, rfl⟩
    · have hkept : peer.processWriteNotice = peer := if_pos (by simpa using hpending)
      rw [hkept]
      exact ⟨h.idle.resolve_right hpending, h.quiet, h.stream, rfl⟩
  obtain ⟨hidle, hquiet, hstream, hwrites⟩ := hends
  have hpump : peer.pump writableStream true = { peer.processWriteNotice with pendingOut := [] } := by
    show peer.processWriteNotice.tryStartWrite writableStream true = _
    unfold tryStartWrite
    rw [if_neg (by simp [hidle, hstream]), hquiet]
    rfl
  have hsound : (peer.pump writableStream true).IsSound :=
    h.sound.processWriteNotice.tryStartWrite processWriteNotice_pending _ _
  rw [hpump] at hsound ⊢
  have hlength : peer.processWriteNotice.writes.length = count := by rw [hwrites, h.writes]
  exact ⟨⟨hsound, hlength, rfl, hstream, Or.inl hidle⟩, hidle, processWriteNotice_pending⟩

/-- One more write. -/
theorem PeerState.HasWritten.cycle {peer : PeerState} {count : Nat} (h : peer.HasWritten count) :
    ∃ next, runActions PeerState.step peer writeCycle = some next ∧
      next.HasWritten (count + 1) := by
  obtain ⟨hrested, hidle, hnoticed⟩ := h.pump
  generalize hrest : peer.pump writableStream true = rested at hrested hidle hnoticed
  have hsend : rested.queuePending .application [0] = rested.push .application [0] := by
    unfold queuePending
    rw [if_neg (by simp [samePending, hidle, hrested.quiet])]
  have hpump : (rested.push .application [0]).pump writableStream true =
      (rested.push .application [0]).write ⟨rested.nextTicket, .application, [0]⟩ [] true := by
    have hkept : (rested.push .application [0]).processWriteNotice =
        rested.push .application [0] := if_pos (by simp [push, hnoticed])
    unfold PeerState.pump tryStartWrite
    rw [hkept, if_neg (by simp [push, hidle, hrested.stream])]
    simp [push, hrested.quiet, tryStartWriteLoop, writableStream, PendingOut.isOversize,
      PeerState.write]
  have hsound := (hrested.sound.push .application [0]).processWriteNotice.tryStartWrite
    processWriteNotice_pending writableStream true
  refine ⟨(rested.push .application [0]).pump writableStream true, ?_, ?_⟩
  · apply runActions_cons.mpr ⟨rested, congrArg some hrest, ?_⟩
    exact runActions_cons.mpr ⟨_, congrArg some hsend, runActions_cons.mpr ⟨_, rfl, rfl⟩⟩
  · refine ⟨hsound, ?_, ?_, ?_, Or.inr ?_⟩
    · rw [hpump]
      show (rested.writes ++ [_]).length = count + 1
      rw [List.length_append, hrested.writes]
      rfl
    · rw [hpump]
      rfl
    · rw [hpump]
      exact hrested.stream
    · rw [hpump]
      rfl

theorem PeerState.HasWritten.cycles {peer : PeerState} {count : Nat} (h : peer.HasWritten count)
    (more : Nat) : ∃ next,
      runActions PeerState.step peer (List.replicate more writeCycle).flatten = some next ∧
        next.HasWritten (count + more) := by
  induction more generalizing peer count with
  | zero => exact ⟨peer, rfl, h⟩
  | succ more ih =>
      obtain ⟨middle, hcycle, hmiddle⟩ := h.cycle
      obtain ⟨next, hrest, hnext⟩ := ih hmiddle
      refine ⟨next, ?_, ?_⟩
      · rw [List.replicate_succ, List.flatten_cons]
        exact runActions_append.mpr ⟨middle, hcycle, hrest⟩
      · rw [Nat.add_comm more 1, ← Nat.add_assoc]
        exact hnext

/-- A stream is bound, and there are `2 ^ 64` writes on it: the last of them has the token `0`. -/
theorem writeTokens_wrap : ∃ final,
    runActions PeerState.step {}
        (.bindStream :: (List.replicate (2 ^ 64) writeCycle).flatten) = some final ∧
      ¬ (final.writes.map IssuedWrite.token).Pairwise (· < ·) := by
  have hbound : (({} : PeerState).bindPeerStream).HasWritten 0 :=
    ⟨PeerState.IsSound.initial.bindPeerStream, rfl, rfl, rfl, Or.inl rfl⟩
  obtain ⟨final, hrun, hwritten⟩ := hbound.cycles (2 ^ 64)
  refine ⟨final, runActions_cons.mpr ⟨_, rfl, hrun⟩, ?_⟩
  intro hincrease
  rw [hwritten.sound.tokens, hwritten.writes, List.pairwise_map, List.pairwise_iff_getElem]
    at hincrease
  have hlt := hincrease 0 (2 ^ 64 - 1) (by simp) (by simp) (by omega)
  rw [List.getElem_range, List.getElem_range] at hlt
  exact absurd hlt (by decide)

end AppTraverse
