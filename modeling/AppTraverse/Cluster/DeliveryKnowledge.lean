import AppTraverse.Cluster.CarriedEvents

/-!
# What a replica knows about the other side

A replica never sees the storage of the other side.  It knows of it what its sync
states record and what the frames it received say.  `ReplicaView` is what there is to
know about a side: the shared Events that it holds durably, and the packets it has
sent.  Both only grow, so whatever was true of a state, of a packet or of a frame in
flight stays true (the `mono` lemmas), however long the frame is on its way.
-/

namespace AppTraverse

open Foundations

variable {α ε : Type}

/-- What there is to know about one side. -/
structure ReplicaView where
  endpoint : Bytes
  holds : ObjId → SharedEventId → Prop
  sent : PacketKey → Bytes → Prop

/-- The replica holds the record of an identity, in memory and saved. -/
def Replica.Holds (replica : Replica α ε) (nodeId : ObjId) (identity : SharedEventId) : Prop :=
  ∃ classId record, RecordIsKept replica nodeId classId identity record

/-- The view of a replica with its history. -/
def PacketHistory.view (history : PacketHistory α ε) : ReplicaView where
  endpoint := history.replica.runtime.localEndpoint
  holds := history.replica.Holds
  sent := fun key bytes => (key, bytes) ∈ history.sent

/-- The same side later on. -/
structure ReplicaView.Grows (before after : ReplicaView) : Prop where
  endpoint : after.endpoint = before.endpoint
  holds : ∀ nodeId identity, before.holds nodeId identity → after.holds nodeId identity
  sent : ∀ key bytes, before.sent key bytes → after.sent key bytes

theorem ReplicaView.Grows.refl (view : ReplicaView) : view.Grows view :=
  ⟨rfl, fun _ _ h => h, fun _ _ h => h⟩

section Truth

variable (aether : Aether α ε) (own peer : ReplicaView)

/-- What a sync state of `own` records about `peer` is so. -/
structure StateIsTrue (nodeId : ObjId) (state : LinkSyncState) : Prop where
  delivered : ∀ identity ∈ state.deliveredEventIds, peer.holds nodeId identity
  initial : state.initialSyncPhase = .pending → ∀ carried,
    carriedIdentities aether state.pendingInitialPacket = some carried →
    state.pendingInitialCoveredEventIds = carried
  event : state.hasPendingEvent = true → ∀ carried,
    carriedIdentities aether state.pendingEventPacket = some carried →
    carried = [state.pendingEventIdentity]
  received : state.receivedInitialPacketId.isValid = true → ∃ bytes carried,
    peer.sent ⟨nodeId, state.shareId, state.receivedInitialPacketId⟩ bytes ∧
    carriedIdentities aether bytes = some carried ∧
    ∀ identity ∈ carried, own.holds nodeId identity

/-- No identity twice, foreign Events are held on both sides, and the sync states tell
the truth.  An origin has to fit the length field of a frame. -/
structure NodeIsTrue (node : SharedNode α ε) : Prop where
  once : (sharedIdentities node.journal).Nodup
  fits : ∀ identity ∈ sharedIdentities node.journal, identity.originUid.length < 2 ^ 32
  foreign : ∀ identity ∈ sharedIdentities node.journal, identity.originUid ≠ own.endpoint →
    own.holds node.objId identity ∧ peer.holds node.objId identity
  states : ∀ entry ∈ node.fields.linkSyncStates, ∀ state, entry.obj = some state →
    StateIsTrue aether own peer node.objId state

/-- A packet that `own` sent carries what `own` holds. -/
structure PacketIsTrue (key : PacketKey) (bytes : Bytes) : Prop where
  valid : key.packetId.isValid = true
  cuts : CutsLocalStates aether bytes
  carries : ∀ carried, carriedIdentities aether bytes = some carried →
    carried.Nodup ∧ ∀ identity ∈ carried, identity.originUid.length < 2 ^ 32 ∧
      own.holds key.nodeId identity ∧
      (identity.originUid ≠ own.endpoint → peer.holds key.nodeId identity)

/-- An Ack that `own` sent names a packet of `peer` whose Events `own` holds. -/
def AckIsTrue (key : PacketKey) : Prop :=
  ∃ bytes carried, peer.sent key bytes ∧ carriedIdentities aether bytes = some carried ∧
    ∀ identity ∈ carried, own.holds key.nodeId identity

/-- Bytes that `own` handed to the transport. -/
structure FrameIsTrue (bytes : Bytes) : Prop where
  packet : ∀ key, packetKeyOf bytes = some key →
    own.sent key bytes ∧ PacketIsTrue aether own peer key bytes
  ack : ∀ frame, decodeAckFrame bytes = some frame →
    AckIsTrue aether own peer ⟨frame.targetNodeId, frame.destinationShareId, frame.packetId⟩

end Truth

section Monotone

variable {aether : Aether α ε} {own own' peer peer' : ReplicaView}

theorem StateIsTrue.mono {nodeId : ObjId} {state : LinkSyncState}
    (h : StateIsTrue aether own peer nodeId state) (hown : own.Grows own')
    (hpeer : peer.Grows peer') : StateIsTrue aether own' peer' nodeId state where
  delivered := fun identity hidentity => hpeer.holds _ _ (h.delivered identity hidentity)
  initial := h.initial
  event := h.event
  received := by
    intro hvalid
    obtain ⟨bytes, carried, hsent, hcarried, hheld⟩ := h.received hvalid
    exact ⟨bytes, carried, hpeer.sent _ _ hsent, hcarried,
      fun identity hidentity => hown.holds _ _ (hheld identity hidentity)⟩

theorem NodeIsTrue.mono {node : SharedNode α ε} (h : NodeIsTrue aether own peer node)
    (hown : own.Grows own') (hpeer : peer.Grows peer') :
    NodeIsTrue aether own' peer' node where
  once := h.once
  fits := h.fits
  foreign := by
    intro identity hidentity horigin
    rw [hown.endpoint] at horigin
    obtain ⟨hhere, hthere⟩ := h.foreign identity hidentity horigin
    exact ⟨hown.holds _ _ hhere, hpeer.holds _ _ hthere⟩
  states := fun entry hentry state hstate =>
    (h.states entry hentry state hstate).mono hown hpeer

theorem PacketIsTrue.mono {key : PacketKey} {bytes : Bytes}
    (h : PacketIsTrue aether own peer key bytes) (hown : own.Grows own')
    (hpeer : peer.Grows peer') : PacketIsTrue aether own' peer' key bytes where
  valid := h.valid
  cuts := h.cuts
  carries := by
    intro carried hcarried
    obtain ⟨honce, hall⟩ := h.carries carried hcarried
    refine ⟨honce, fun identity hidentity => ?_⟩
    obtain ⟨hfits, hheld, hforeign⟩ := hall identity hidentity
    rw [hown.endpoint]
    exact ⟨hfits, hown.holds _ _ hheld, fun horigin => hpeer.holds _ _ (hforeign horigin)⟩

theorem AckIsTrue.mono {key : PacketKey} (h : AckIsTrue aether own peer key)
    (hown : own.Grows own') (hpeer : peer.Grows peer') : AckIsTrue aether own' peer' key := by
  obtain ⟨bytes, carried, hsent, hcarried, hheld⟩ := h
  exact ⟨bytes, carried, hpeer.sent _ _ hsent, hcarried,
    fun identity hidentity => hown.holds _ _ (hheld identity hidentity)⟩

/-- A frame in flight stays true while both sides go on. -/
theorem FrameIsTrue.mono {bytes : Bytes} (h : FrameIsTrue aether own peer bytes)
    (hown : own.Grows own') (hpeer : peer.Grows peer') :
    FrameIsTrue aether own' peer' bytes where
  packet := fun key hkey =>
    ⟨hown.sent _ _ (h.packet key hkey).1, (h.packet key hkey).2.mono hown hpeer⟩
  ack := fun frame hframe => (h.ack frame hframe).mono hown hpeer

/-- A state that was just created records nothing. -/
theorem stateIsTrue_fresh (nodeId shareId link : ObjId) :
    StateIsTrue aether own peer nodeId (.fresh shareId link) where
  delivered := by simp [LinkSyncState.fresh]
  initial := by simp [LinkSyncState.fresh]
  event := by
    intro hpending
    cases hpending
  received := by
    intro hvalid
    cases hvalid

end Monotone

section Nodes

variable {aether : Aether α ε} {app : AppClass α ε} {own peer : ReplicaView}
  {node changed : SharedNode α ε}

/-- The truth of a Node does not depend on its generation, its fields of the
application or its settings. -/
theorem NodeIsTrue.of_sameJournal (h : NodeIsTrue aether own peer node)
    (hid : changed.objId = node.objId) (hjournal : changed.journal = node.journal)
    (hstates : ∀ entry ∈ changed.fields.linkSyncStates, ∀ state, entry.obj = some state →
      StateIsTrue aether own peer node.objId state) :
    NodeIsTrue aether own peer changed where
  once := by rw [hjournal]; exact h.once
  fits := by rw [hjournal]; exact h.fits
  foreign := by rw [hjournal, hid]; exact h.foreign
  states := by rw [hid]; exact hstates

/-- What holds of all sync states and of a committed one holds of all after the commit. -/
theorem forall_states_of_commit {P : LinkSyncState → Prop} {index : Nat} {eventId : ObjId}
    {event : LinkSyncEvent}
    (h : ∀ entry ∈ node.fields.linkSyncStates, ∀ state, entry.obj = some state → P state)
    (hcommit : commitLinkSyncEvent node index eventId event = .ok changed)
    (hstate : ∀ state committed, linkSyncStateAt node index = .ok state →
      state.commit eventId event = .ok committed → P state → P committed) :
    ∀ entry ∈ changed.fields.linkSyncStates, ∀ state, entry.obj = some state → P state := by
  obtain ⟨state, committed, hat, happly, rfl⟩ := commitLinkSyncEvent_eq_ok_iff.mp hcommit
  obtain ⟨found, hfound, hobj⟩ :=
    Option.bind_eq_some_iff.mp (linkSyncStateAt_eq_ok_iff.mp hat)
  intro entry hentry other hother
  have hentry : entry ∈ node.fields.linkSyncStates.modify index fun found =>
      { found with obj := some committed } := hentry
  obtain ⟨position, hposition⟩ := List.mem_iff_getElem?.mp hentry
  rw [List.getElem?_modify] at hposition
  obtain ⟨before, hbefore, rfl⟩ := Option.map_eq_some_iff.mp hposition
  by_cases hindex : index = position
  · rw [if_pos hindex] at hother
    cases hother
    exact hstate state committed hat happly
      (h found (List.mem_of_getElem? hfound) state hobj)
  · rw [if_neg hindex] at hother
    exact h before (List.mem_of_getElem? hbefore) other hother

/-- A commit on one sync state keeps a Node true if it keeps that state true. -/
theorem nodeIsTrue_of_commit {index : Nat} {eventId : ObjId} {event : LinkSyncEvent}
    (h : NodeIsTrue aether own peer node)
    (hcommit : commitLinkSyncEvent node index eventId event = .ok changed)
    (hstate : ∀ state committed, linkSyncStateAt node index = .ok state →
      state.commit eventId event = .ok committed →
      StateIsTrue aether own peer node.objId state →
      StateIsTrue aether own peer node.objId committed) :
    NodeIsTrue aether own peer changed :=
  h.of_sameJournal (sameShared_of_commitLinkSyncEvent hcommit).objId
    (sameShared_of_commitLinkSyncEvent hcommit).journal
    (forall_states_of_commit h.states hcommit hstate)

/-- States that were kept or just created stay true. -/
theorem statesAreTrue_of_statesFrom {before after : List (Ref LinkSyncState)} {nodeId : ObjId}
    (hfrom : StatesFrom before after)
    (h : ∀ entry ∈ before, ∀ state, entry.obj = some state →
      StateIsTrue aether own peer nodeId state) :
    ∀ entry ∈ after, ∀ state, entry.obj = some state →
      StateIsTrue aether own peer nodeId state := by
  intro entry hentry state hstate
  rcases hfrom.mem hentry with hmem | ⟨shareId, link, hfresh⟩
  · exact h entry hmem state hstate
  · cases hfresh.symm.trans hstate
    exact stateIsTrue_fresh nodeId shareId link

/-- A Node stays true when a record is inserted whose Event both sides hold, or whose
origin is this side. -/
theorem nodeIsTrue_of_recordInserted {ids : Nat → ObjId} {nowUs : UInt64}
    {event : Ref (SharedNodeEvent ε)} {identity : SharedEventId} {order : SharedEventOrder}
    (h : NodeIsTrue aether own peer node)
    (hinserted : RecordInserted (app.nodeClass ids) node
      (sharedRecord event identity order nowUs) nowUs changed)
    (hfits : identity.originUid.length < 2 ^ 32)
    (hforeign : identity.originUid ≠ own.endpoint →
      own.holds node.objId identity ∧ peer.holds node.objId identity) :
    NodeIsTrue aether own peer changed where
  once := nodup_of_recordInserted hinserted h.once
  fits := by
    intro other hother
    rw [(sharedIdentities_of_recordInserted hinserted).mem_iff, List.mem_append] at hother
    rcases hother with hnew | hold
    · split at hnew
      case isTrue => rw [List.mem_singleton.mp hnew]; exact hfits
      case isFalse => cases hnew
    · exact h.fits other hold
  foreign := by
    intro other hother horigin
    rw [hinserted.objId]
    rw [(sharedIdentities_of_recordInserted hinserted).mem_iff, List.mem_append] at hother
    rcases hother with hnew | hold
    · split at hnew
      case isTrue =>
        rw [List.mem_singleton.mp hnew] at horigin ⊢
        exact hforeign horigin
      case isFalse => cases hnew
    · exact h.foreign other hold horigin
  states := by
    rw [hinserted.objId]
    exact statesAreTrue_of_statesFrom (statesFrom_of_recordInserted hinserted) h.states

/-- A local operation that shares Events of this side only keeps a Node true. -/
theorem nodeIsTrue_of_run {ids : Nat → ObjId} {nowUs : UInt64} {operation : NodeOperation ε}
    (h : NodeIsTrue aether own peer node) (hkeeps : operation ≠ .compactJournal)
    (hrun : operation.run app ids nowUs node = .ok changed)
    (hfits : own.endpoint.length < 2 ^ 32)
    (horigin : ∀ event identity order, operation = .commitShared event identity order →
      identity.originUid = own.endpoint) :
    NodeIsTrue aether own peer changed := by
  obtain ⟨honce, hmem⟩ := sharedIdentities_of_run hkeeps hrun h.once
  have hoperated := nodeOperated_of_run hrun
  have hid := objId_of_operated hoperated
  refine ⟨honce, fun identity hidentity => ?_, fun identity hidentity hforeign => ?_, ?_⟩
  · rcases hmem identity hidentity with hold | ⟨event, order, hcommitted⟩
    · exact h.fits identity hold
    · rw [horigin event identity order hcommitted]
      exact hfits
  · rw [hid]
    rcases hmem identity hidentity with hold | ⟨event, order, hcommitted⟩
    · exact h.foreign identity hold hforeign
    · exact absurd (horigin event identity order hcommitted) hforeign
  · rw [hid]
    exact statesAreTrue_of_statesFrom (statesFrom_of_operated hoperated) h.states

end Nodes

section Storage

variable {nodes : List (SharedNode α ε)} {P : SharedNode α ε → Prop}

theorem forall_replaceNode (h : ∀ node ∈ nodes, P node) {changed : SharedNode α ε}
    (hchanged : P changed) : ∀ node ∈ replaceNode nodes changed, P node := by
  intro node hnode
  obtain ⟨before, hbefore, rfl⟩ := List.mem_map.mp hnode
  split
  case isTrue => exact hchanged
  case isFalse => exact h before hbefore

theorem forall_saveNodeValue (h : ∀ node ∈ nodes, P node) {saved : SharedNode α ε}
    (hsaved : P saved) : ∀ node ∈ saveNodeValue nodes saved, P node := by
  unfold saveNodeValue
  split
  case isTrue => exact forall_replaceNode h hsaved
  case isFalse =>
    intro node hnode
    rcases List.mem_append.mp hnode with hold | hnew
    · exact h node hold
    · rw [List.mem_singleton.mp hnew]
      exact hsaved

/-- The effect saves nothing but what is true. -/
def Effect.SavesTrue (aether : Aether α ε) (own peer : ReplicaView) : Effect α ε → Prop
  | .saveNode node => NodeIsTrue aether own peer node
  | .saveLinkSyncState nodeId entry => ∀ state, entry.obj = some state →
      StateIsTrue aether own peer nodeId state
  | _ => True

/-- Effects that save what is true keep the saved Nodes true. -/
theorem nodesAreTrue_of_perform {aether : Aether α ε} {own peer : ReplicaView}
    {effects : List (Effect α ε)} {storage : ReplicaStorage α ε}
    (h : ∀ node ∈ storage.nodes, NodeIsTrue aether own peer node)
    (heffects : ∀ effect ∈ effects, effect.SavesTrue aether own peer) :
    ∀ node ∈ (effects.foldl ReplicaStorage.perform storage).nodes,
      NodeIsTrue aether own peer node := by
  induction effects generalizing storage with
  | nil => exact h
  | cons effect rest ih =>
      rw [List.forall_mem_cons] at heffects
      refine ih ?_ heffects.2
      cases effect with
      | commitObjectGraph graph => exact h
      | storeObject id layers => exact h
      | saveNode node => exact forall_saveNodeValue h heffects.1
      | saveLinkSyncState nodeId entry =>
          intro node hnode
          obtain ⟨before, hbefore, rfl⟩ := List.mem_map.mp hnode
          have htrue := h before hbefore
          split
          case isFalse => exact htrue
          case isTrue hid =>
            refine htrue.of_sameJournal rfl rfl fun found hfound state hstate => ?_
            obtain ⟨other, hother, rfl⟩ := List.mem_map.mp hfound
            split at hstate
            case isTrue =>
              rw [hid]
              exact heffects.1 state hstate
            case isFalse => exact htrue.states other hother state hstate
      | bindNode endpoint node bound => exact h
      | send destination bytes => exact h

end Storage

section Held

variable {replica : Replica α ε} {node saved : SharedNode α ε} {nodeId : ObjId}
  {identity : SharedEventId}

/-- The identities of a Node that is saved as it is are held. -/
theorem holds_of_saved (hlive : findNode replica.runtime.nodes nodeId = some node)
    (hsaved : findNode replica.storage.nodes nodeId = some saved)
    (hclass : saved.classId = node.classId) (hjournal : saved.journal = node.journal)
    (hidentity : identity ∈ sharedIdentities node.journal) : replica.Holds nodeId identity := by
  obtain ⟨record, hrecord⟩ := exists_record_of_mem_sharedIdentities hidentity
  have hhas : HasRecord node node.classId identity record := ⟨rfl, hrecord⟩
  exact ⟨node.classId, record, ⟨node, hlive, hhas⟩,
    ⟨saved, hsaved, hhas.of_sameJournal hclass hjournal⟩⟩

/-- What a replica holds is in the journal of its saved Node. -/
theorem exists_saved_of_holds (h : replica.Holds nodeId identity) :
    ∃ saved, findNode replica.storage.nodes nodeId = some saved ∧
      identity ∈ sharedIdentities saved.journal := by
  obtain ⟨classId, record, hkept⟩ := h
  obtain ⟨saved, hsaved, hrecord⟩ := hkept.saved
  exact ⟨saved, hsaved, mem_sharedIdentities_of_findSharedEvent hrecord.found⟩

/-- And in the journal of its registered one. -/
theorem exists_live_of_holds (h : replica.Holds nodeId identity) :
    ∃ live, findNode replica.runtime.nodes nodeId = some live ∧
      identity ∈ sharedIdentities live.journal := by
  obtain ⟨classId, record, hkept⟩ := h
  obtain ⟨live, hlive, hrecord⟩ := hkept.live
  exact ⟨live, hlive, mem_sharedIdentities_of_findSharedEvent hrecord.found⟩

end Held

end AppTraverse
