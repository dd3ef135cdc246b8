import AppTraverse.Admission.ReplayedShares

/-!
# Local sync state after an import

The replay that rebuilds an imported Node stashes the valid entries of its
`link_sync_states` and creates a state only for an `AddShareEvent` that finds
none, so entries the payload smuggled in survive, and a Share that lives only in
the base gets no state.  The import leaves the local sync state this replica
would have made itself exactly when the journal removes every relationship and
every sync state that the root was loaded with.
-/

namespace AppTraverse

open Foundations

variable {α ε : Type} (aether : Aether α ε) (app : AppClass α ε)

/-- The state of the sender's Share: complete, with the covered identities
delivered and nothing pending. -/
structure SourceComplete (state : LinkSyncState) (covered : List SharedEventId) :
    Prop where
  phase : state.initialSyncPhase = .complete
  delivered : ∀ identity, identity ∈ state.deliveredEventIds ↔ identity ∈ covered
  initial : state.pendingInitialPacketId = .empty ∧ state.pendingInitialPacket = [] ∧
    state.pendingInitialCoveredEventIds = []
  event : state.hasPendingEvent = false ∧ state.pendingEventPacket = []

/-- The state of this replica's own Share: the received packet is noted. -/
structure DestinationComplete (state : LinkSyncState) (packetId : ObjId) : Prop where
  phase : state.initialSyncPhase = .complete
  received : state.receivedInitialPacketId = packetId

/-- The state of any other Share: as it was created. -/
def IsUntouched (state : LinkSyncState) : Prop :=
  state = .fresh state.shareId state.link

/-- The local sync state of a Node is its own and complete: one state created
here for each open Share, and none else. -/
structure LocalSyncEstablished (node : SharedNode α ε)
    (sourceShareId destinationShareId packetId : ObjId) : Prop where
  created : ∀ entry ∈ node.fields.linkSyncStates, entry.isValid = true →
    entry.isLoaded = true ∧ ∃ made ∈ node.fields.created, entry.id = made.stateId
  oneEach : ∀ id, syncCount (node.fields.linkSyncStates.filter Ref.isValid) id =
    shareCount node.fields.shares id
  shareOnce : ∀ id, shareCount node.fields.shares id ≤ 1
  source : ∀ entry ∈ node.fields.linkSyncStates, ∀ state, entry.isValid = true →
    entry.obj = some state → state.shareId = sourceShareId →
    SourceComplete state (sharedIdentities node.journal)
  destination : ∀ entry ∈ node.fields.linkSyncStates, ∀ state, entry.isValid = true →
    entry.obj = some state → state.shareId = destinationShareId →
    DestinationComplete state packetId
  others : ∀ entry ∈ node.fields.linkSyncStates, ∀ state, entry.isValid = true →
    entry.obj = some state → state.shareId ≠ sourceShareId →
    state.shareId ≠ destinationShareId → IsUntouched state

/-- The journal of a root removes every relationship of its base and every sync
state it was loaded with, each of which can be loaded. -/
def InitialEntriesRemoved (root : SharedNode α ε) : Prop :=
  (∀ entry ∈ stashedStates root, entry.isLoaded = true) ∧
    ∀ snapshot, root.base.obj = some snapshot → ∀ id,
      shareCount snapshot.shares id ≤ removeCount root.journal id ∧
        syncCount (stashedStates root) id ≤ removeCount root.journal id

/-- The ids generated in one call are valid and distinct, and name nothing in the
payload or at the receiver. -/
structure FreshIds (env : StepEnv) (replica : Replica α ε) (payload : Bytes) : Prop where
  scratch : ScratchIdsFresh aether env payload
  valid : ∀ n, (env.ids n).isValid = true
  unused : ∀ n, productionFind aether app replica.others replica.runtime.nodes
    replica.storage (env.ids n) = none
  notInPayload : ∀ n parsed, deserializeObjectGraph aether payload = some parsed →
    parsed.layers? (env.ids n) = none
  apart : ∀ m n, env.ids m ≠ env.scratch.ids n

section MapState

/-- Change the state of one relationship. -/
def mapState (id : ObjId) (f : LinkSyncState → LinkSyncState)
    (entries : List (Ref LinkSyncState)) : List (Ref LinkSyncState) :=
  entries.map fun entry =>
    { entry with
      obj := entry.obj.map fun state => if state.shareId = id then f state else state }

variable {id : ObjId} {f : LinkSyncState → LinkSyncState}
  {entries : List (Ref LinkSyncState)}

theorem mapState_eq_self (h : syncCount entries id = 0) : mapState id f entries = entries := by
  induction entries with
  | nil => rfl
  | cons head tail ih =>
      rw [syncCount_cons] at h
      have hhead : (head.obj.map fun state => if state.shareId = id then f state else state)
          = head.obj := by
        cases hobj : head.obj with
        | none => rfl
        | some state =>
            have hne : state.shareId ≠ id := by
              intro hid
              simp [syncKey, hobj, hid] at h
            simp [hne]
      have htail := ih (by omega)
      rw [mapState] at htail
      rw [mapState, List.map_cons, htail, hhead]

/-- Every entry of the result comes from an entry with the same id. -/
theorem exists_of_mem_mapState {entry : Ref LinkSyncState}
    (h : entry ∈ mapState id f entries) {state : LinkSyncState}
    (hstate : entry.obj = some state) :
    ∃ before ∈ entries, ∃ old, before.obj = some old ∧ entry.id = before.id ∧
      state = if old.shareId = id then f old else old := by
  obtain ⟨before, hbefore, rfl⟩ := List.mem_map.mp h
  obtain ⟨old, hold, hnew⟩ := Option.map_eq_some_iff.mp hstate
  exact ⟨before, hbefore, old, hold, rfl, hnew.symm⟩

/-- A change that keeps the relationship keeps ids and keys. -/
theorem map_key_mapState (id : ObjId) (entries : List (Ref LinkSyncState))
    (hf : ∀ state, (f state).shareId = state.shareId) :
    (mapState id f entries).map (fun entry => (entry.id, syncKey entry)) =
      entries.map fun entry => (entry.id, syncKey entry) := by
  rw [mapState, List.map_map]
  refine List.map_congr_left fun entry _ => ?_
  simp only [Function.comp, syncKey, Option.map_map, Prod.mk.injEq, true_and]
  congr 1
  funext state
  by_cases hid : state.shareId = id
  · simp [hid, hf]
  · simp [hid]

end MapState

section Commit

/-- The entry of a relationship that has exactly one is where the search finds
it, and a commit there is a change of that relationship. -/
theorem exists_state_of_unique {node : SharedNode α ε} {id : ObjId}
    (husable : ∀ entry ∈ node.fields.linkSyncStates,
      entry.isValid = true ∧ entry.isLoaded = true)
    (hone : syncCount node.fields.linkSyncStates id = 1) :
    ∃ index entry state,
      findLinkSyncIndexForShare node.fields.linkSyncStates id = .ok index ∧
      index < node.fields.linkSyncStates.length ∧
      node.fields.linkSyncStates[index]? = some entry ∧
      entry ∈ node.fields.linkSyncStates ∧ entry.obj = some state ∧ state.shareId = id ∧
      linkSyncStateAt node index = .ok state ∧
      ∀ f : LinkSyncState → LinkSyncState,
        (setLinkSyncStateAt node index (f state)).fields.linkSyncStates =
          mapState id f node.fields.linkSyncStates := by
  obtain ⟨before, entry, after, hsplit, hkey, hfind⟩ :=
    findLinkSyncIndexForShare_of_pos [] husable (show 0 < syncCount _ id by omega)
  rw [List.append_nil] at hfind
  obtain ⟨state, hstate, hid⟩ := Option.map_eq_some_iff.mp hkey
  have hat : node.fields.linkSyncStates[before.length]? = some entry := by
    rw [hsplit]
    simp
  refine ⟨before.length, entry, state, hfind, ?_, hat, ?_, hstate, hid, ?_, ?_⟩
  · rw [hsplit]
    simp
  · rw [hsplit]
    simp
  · simp [linkSyncStateAt, hat, hstate]
  · intro f
    rw [hsplit, syncCount_append, syncCount_cons, if_pos hkey] at hone
    have hbefore : mapState id f before = before := mapState_eq_self (by omega)
    have hafter : mapState id f after = after := mapState_eq_self (by omega)
    change node.fields.linkSyncStates.modify before.length _ = _
    rw [hsplit, modify_split]
    have hmap : mapState id f (before ++ entry :: after) =
        mapState id f before ++ { entry with obj := some (f state) } ::
          mapState id f after := by
      simp [mapState, hstate, hid]
    rw [hmap, hbefore, hafter]

/-- What `CompleteFromReceivedSnapshot` makes of a state. -/
def completedFrom (covered : List SharedEventId) (state : LinkSyncState) : LinkSyncState :=
  { state with
    initialSyncPhase := .complete
    deliveredEventIds := LinkSyncState.addDelivered state.deliveredEventIds
      (covered.filter fun identity => !identity.originUid.isEmpty)
    pendingInitialPacketId := .empty
    pendingInitialPacket := []
    pendingInitialCoveredEventIds := [] }

/-- What `NoteInitialSyncReceived` makes of a state. -/
def notedReceived (packetId : ObjId) (state : LinkSyncState) : LinkSyncState :=
  { state with receivedInitialPacketId := packetId, initialSyncPhase := .complete }

theorem shareId_completedFrom (covered : List SharedEventId) (state : LinkSyncState) :
    (completedFrom covered state).shareId = state.shareId := rfl

theorem shareId_notedReceived (packetId : ObjId) (state : LinkSyncState) :
    (notedReceived packetId state).shareId = state.shareId := rfl

/-- Marking a fresh state complete from a received snapshot succeeds. -/
theorem commit_completeFromReceivedSnapshot {state : LinkSyncState}
    (hfresh : IsUntouched state) (eventId : ObjId) (covered : List SharedEventId) :
    state.commit eventId (.completeFromReceivedSnapshot covered) =
      .ok (completedFrom covered state) := by
  rw [hfresh]
  rfl

/-- Every shared identity has an origin. -/
theorem filter_origin_sharedIdentities (journal : List (EventRecord (SharedNodeEvent ε))) :
    (sharedIdentities journal).filter (fun identity => !identity.originUid.isEmpty) =
      sharedIdentities journal := by
  rw [List.filter_eq_self]
  intro identity hidentity
  obtain ⟨record, hrecord, rfl⟩ := List.mem_map.mp hidentity
  exact (List.mem_filter.mp hrecord).2

theorem sourceComplete_completedFrom {state : LinkSyncState} (hfresh : IsUntouched state)
    (journal : List (EventRecord (SharedNodeEvent ε))) :
    SourceComplete (completedFrom (sharedIdentities journal) state)
      (sharedIdentities journal) := by
  rw [hfresh]
  refine ⟨rfl, fun identity => ?_, ⟨rfl, rfl, rfl⟩, rfl, rfl⟩
  simp only [completedFrom]
  rw [LinkSyncState.mem_addDelivered, filter_origin_sharedIdentities]
  simp [LinkSyncState.fresh]

end Commit

section Counts

variable {entries entries' : List (Ref LinkSyncState)}

theorem syncCount_eq_of_map_key
    (h : entries.map (fun entry => (entry.id, syncKey entry)) =
      entries'.map fun entry => (entry.id, syncKey entry)) (id : ObjId) :
    syncCount entries id = syncCount entries' id := by
  have hcount := congrArg (List.countP fun pair => decide (pair.2 = some id)) h
  rw [List.countP_map, List.countP_map] at hcount
  exact hcount

theorem usable_of_map_key
    (h : entries.map (fun entry => (entry.id, syncKey entry)) =
      entries'.map fun entry => (entry.id, syncKey entry))
    (husable : ∀ entry ∈ entries', entry.isValid = true ∧ entry.isLoaded = true) :
    ∀ entry ∈ entries, entry.isValid = true ∧ entry.isLoaded = true := by
  intro entry hentry
  have hmem : (entry.id, syncKey entry) ∈
      entries'.map fun entry => (entry.id, syncKey entry) := by
    rw [← h]
    exact List.mem_map_of_mem hentry
  obtain ⟨other, hother, hsame⟩ := List.mem_map.mp hmem
  obtain ⟨hid, hkey⟩ := Prod.mk.inj hsame
  obtain ⟨hvalid, hloaded⟩ := husable other hother
  refine ⟨by rw [Ref.isValid, ← hid]; exact hvalid, ?_⟩
  obtain ⟨state, hstate⟩ := Ref.isLoaded_iff.mp hloaded
  rw [syncKey, syncKey, hstate, Option.map_some, eq_comm] at hkey
  obtain ⟨state', hstate', -⟩ := Option.map_eq_some_iff.mp hkey
  exact Ref.isLoaded_iff.mpr ⟨state', hstate'⟩

/-- Without loaded entries of any relationship, loaded entries do not exist. -/
theorem eq_nil_of_syncCount_eq_zero
    (hloaded : ∀ entry ∈ entries, entry.isLoaded = true)
    (hzero : ∀ id, syncCount entries id = 0) : entries = [] := by
  rw [List.eq_nil_iff_forall_not_mem]
  intro entry hentry
  obtain ⟨state, hstate⟩ := Ref.isLoaded_iff.mp (hloaded entry hentry)
  have hcount := hzero state.shareId
  rw [syncCount, List.countP_eq_zero] at hcount
  exact hcount entry hentry (by simp [syncKey, hstate])

/-- Without an unloaded entry every entry is in the loaded prefix. -/
theorem unloadedSuffix_eq_nil_iff :
    unloadedSuffix entries = [] ↔ ∀ entry ∈ entries, entry.isLoaded = true := by
  rw [unloadedSuffix, List.dropWhile_eq_nil_iff]

end Counts

section Established

variable {aether app}
variable {env : StepEnv} {frame : NodeStateFrame} {imported : ImportedNode α ε}
  {root : SharedNode α ε} {snapshot : BaseSnapshot α} {kept own : List (Ref LinkSyncState)}

/-- All sync states of a Node were created here, one for each open Share, and
nothing has happened to them. -/
structure OwnStates (node : SharedNode α ε) : Prop where
  usable : ∀ entry ∈ node.fields.linkSyncStates,
    entry.isValid = true ∧ entry.isLoaded = true
  count : ∀ id, syncCount node.fields.linkSyncStates id = shareCount node.fields.shares id
  untouched : ∀ entry ∈ node.fields.linkSyncStates, ∀ state, entry.obj = some state →
    IsUntouched state
  created : ∀ entry ∈ node.fields.linkSyncStates, ∃ made ∈ node.fields.created,
    entry.id = made.stateId

/-- A journal that removes every initial entry leaves only own states. -/
theorem ImportedTrace.ownStates (h : ImportedTrace app env frame imported root snapshot
      kept own) (hids : ∀ n, (env.ids n).isValid = true)
    (hremoved : InitialEntriesRemoved root) : OwnStates imported.node := by
  obtain ⟨hloaded, hcounts⟩ := hremoved
  have hsuffix : unloadedSuffix (stashedStates root) = [] :=
    unloadedSuffix_eq_nil_iff.mpr hloaded
  have hwhole : loadedPrefix (stashedStates root) = stashedStates root :=
    loadedPrefix_eq_self hsuffix
  have hkept : kept = [] := by
    refine eq_nil_of_syncCount_eq_zero (fun entry h' => (h.trace.kept_usable h.start entry h').2)
      fun id => ?_
    have hcount := h.trace.kept_count id
    change syncCount kept id = syncCount (loadedPrefix (stashedStates root)) id - _ at hcount
    rw [hwhole] at hcount
    have hle := (hcounts snapshot h.base id).2
    omega
  have hstates : imported.node.fields.linkSyncStates = own := by
    have heq := h.trace.sync_eq
    change _ = kept ++ unloadedSuffix (stashedStates root) ++ own at heq
    rw [heq, hkept, hsuffix]
    rfl
  refine ⟨?_, fun id => ?_, ?_, ?_⟩
  · rw [hstates]
    exact h.trace.own_usable hids
  · have hle : shareCount snapshot.shares id ≤ removeCount root.journal id :=
      (hcounts snapshot h.base id).1
    rw [hstates]
    rcases Nat.eq_zero_or_pos (syncCount own id) with hown | hown
    · have hone := h.trace.share_le_one id hle
      have hstate := h.trace.share_state id hle
      rw [hkept, hown] at hstate
      have hnot : shareCount imported.node.fields.shares id ≠ 1 := by
        intro hshare
        have hpos := hstate hshare
        simp [syncCount] at hpos
      omega
    · obtain ⟨-, hshare, -, hcount⟩ := h.trace.own_share id hown
      rw [hshare, hcount]
  · rw [hstates]
    intro entry hentry state hstate
    obtain ⟨made, -, rfl⟩ := h.trace.own_created entry hentry
    cases hstate
    rfl
  · rw [hstates]
    intro entry hentry
    obtain ⟨made, hmade, rfl⟩ := h.trace.own_created entry hentry
    exact ⟨made, hmade, rfl⟩

/-- Own states let `OnNodeState` run to its end. -/
theorem onNodeStateOfImportedNode_of_ownStates
    (h : ImportedTrace app env frame imported root snapshot kept own)
    (hown : OwnStates imported.node) (hpacket : frame.packetId.isValid = true)
    (runtime : SharedSyncRuntime α ε) (sourceEndpoint : Bytes) :
    ∃ runtime' registered,
      (onNodeStateOfImportedNode env runtime imported sourceEndpoint frame).result =
        .ok runtime' ∧ runtime'.nodes = runtime.nodes ++ [registered] ∧
      SameShared imported.node registered ∧
      registered.fields.linkSyncStates =
        mapState frame.destinationShareId (notedReceived frame.packetId)
          (mapState imported.sourceShareId
            (completedFrom (sharedIdentities imported.node.journal))
            imported.node.fields.linkSyncStates) := by
  -- The source state is untouched, so it can be completed.
  obtain ⟨sourceIndex, entry, state, hfind, hlt, -, hmem, hstate, -, hat, hset⟩ :=
    exists_state_of_unique hown.usable
      ((hown.count imported.sourceShareId).trans h.source_open)
  have hcommit : commitLinkSyncEvent imported.node sourceIndex env.eventId
      (.completeFromReceivedSnapshot (sharedIdentities imported.node.journal)) =
      .ok (setLinkSyncStateAt imported.node sourceIndex
        (completedFrom (sharedIdentities imported.node.journal) state)) :=
    commitLinkSyncEvent_eq_ok_iff.mpr ⟨state, _, hat,
      commit_completeFromReceivedSnapshot (hown.untouched entry hmem state hstate) _ _, rfl⟩
  have hkeys := map_key_mapState imported.sourceShareId imported.node.fields.linkSyncStates
    (shareId_completedFrom (sharedIdentities imported.node.journal))
  generalize hcompleted : setLinkSyncStateAt imported.node sourceIndex
    (completedFrom (sharedIdentities imported.node.journal) state) = completed at hcommit
  have hstates := hset (completedFrom (sharedIdentities imported.node.journal))
  rw [hcompleted] at hstates
  rw [← hstates] at hkeys
  have hsame := sameShared_of_commitLinkSyncEvent hcommit
  have hsource : completeSourceState env imported.node imported.sourceShareId =
      .ok (completed, sourceIndex) := by
    simp [completeSourceState, hfind, hlt, hcommit, assertThat, bind, Except.bind, pure,
      Except.pure]
  have hlength : sourceIndex < completed.fields.linkSyncStates.length := by
    rw [hstates, mapState, List.length_map]
    exact hlt
  -- The destination state is another one, so it is still untouched.
  have husable := usable_of_map_key hkeys hown.usable
  obtain ⟨index, other, noted, hfind', hlt', -, hmem', hnoted, hid, hat', hset'⟩ :=
    exists_state_of_unique husable
      ((syncCount_eq_of_map_key hkeys frame.destinationShareId).trans
        ((hown.count frame.destinationShareId).trans h.destination_open))
  have huntouched : IsUntouched noted := by
    rw [hstates] at hmem'
    obtain ⟨before, hbefore, old, hold, -, heq⟩ := exists_of_mem_mapState hmem' hnoted
    by_cases hsourceId : old.shareId = imported.sourceShareId
    · rw [if_pos hsourceId] at heq
      refine absurd ?_ h.ne
      rw [← hsourceId, ← hid, heq]
      rfl
    · rw [if_neg hsourceId] at heq
      rw [heq]
      exact hown.untouched before hbefore old hold
  have hdestination : destinationState completed frame.destinationShareId =
      .ok (index, noted) := by
    simp [destinationState, hfind', hlt', hat', assertThat, bind, Except.bind, pure,
      Except.pure]
  have hreceived : noted.receivedInitialPacketId = .empty := by
    rw [huntouched]
    rfl
  have hne : noted.receivedInitialPacketId ≠ frame.packetId := by
    rw [hreceived]
    rintro heq
    rw [← heq] at hpacket
    cases hpacket
  have hnote : commitLinkSyncEvent completed index env.eventId
      (.noteInitialSyncReceived frame.packetId) =
      .ok (setLinkSyncStateAt completed index (notedReceived frame.packetId noted)) :=
    commitLinkSyncEvent_eq_ok_iff.mpr ⟨noted, _, hat', rfl, rfl⟩
  obtain ⟨runtime', hresult, hnodes⟩ := bindAndAcknowledge_returns env
    { runtime with
      nodes := runtime.nodes ++
        [setLinkSyncStateAt completed index (notedReceived frame.packetId noted)] }
    (setLinkSyncStateAt completed index (notedReceived frame.packetId noted))
    sourceEndpoint frame
  refine ⟨runtime', _, ?_, hnodes,
    hsame.trans (sameShared_of_commitLinkSyncEvent hnote), ?_⟩
  · have hinvalid : noted.receivedInitialPacketId.isValid = false := by
      rw [hreceived]
      rfl
    simp only [onNodeStateOfImportedNode, h.source_valid, hsource, pureStep_ok_bind,
      show assertThat true = .ok () from rfl, List.getElem?_eq_getElem hlength, perform_bind,
      hdestination, hne, ne_eq, not_false_eq_true, if_true, hinvalid, Bool.false_eq_true,
      if_false, hpacket, hnote]
    exact hresult
  · rw [hset', hstates]

/-- Own states, one completed and one noted, are what the receiver has to have. -/
theorem OwnStates.localSyncEstablished {node registered : SharedNode α ε}
    {sourceShareId destinationShareId packetId : ObjId} (hown : OwnStates node)
    (hne : sourceShareId ≠ destinationShareId)
    (honce : ∀ id, shareCount node.fields.shares id ≤ 1)
    (hsame : SameShared node registered)
    (hstates : registered.fields.linkSyncStates =
      mapState destinationShareId (notedReceived packetId)
        (mapState sourceShareId (completedFrom (sharedIdentities node.journal))
          node.fields.linkSyncStates)) :
    LocalSyncEstablished registered sourceShareId destinationShareId packetId := by
  have hkeys : registered.fields.linkSyncStates.map (fun entry =>
      (entry.id, syncKey entry)) = node.fields.linkSyncStates.map fun entry =>
        (entry.id, syncKey entry) := by
    rw [hstates, map_key_mapState _ _ (shareId_notedReceived packetId),
      map_key_mapState _ _ (shareId_completedFrom _)]
  have husable := usable_of_map_key hkeys hown.usable
  -- Every registered state is an untouched one after the two changes.
  have horigin : ∀ entry ∈ registered.fields.linkSyncStates, ∀ state,
      entry.obj = some state → ∃ old, IsUntouched old ∧ state.shareId = old.shareId ∧
        state = if old.shareId = destinationShareId then notedReceived packetId old
          else if old.shareId = sourceShareId then
            completedFrom (sharedIdentities node.journal) old
          else old := by
    intro entry hentry state hstate
    rw [hstates] at hentry
    obtain ⟨middle, hmiddle, between, hbetween, -, hfinal⟩ :=
      exists_of_mem_mapState hentry hstate
    obtain ⟨before, hbefore, old, hold, -, hfirst⟩ :=
      exists_of_mem_mapState hmiddle hbetween
    have hkey : between.shareId = old.shareId := by
      rw [hfirst]
      split <;> rfl
    refine ⟨old, hown.untouched before hbefore old hold, ?_, ?_⟩
    · rw [hfinal]
      split
      · exact hkey
      · exact hkey
    · rw [hfinal, hkey, hfirst]
      by_cases hdestination : old.shareId = destinationShareId
      · have hnot : old.shareId ≠ sourceShareId := by
          rw [hdestination]
          exact hne.symm
        rw [if_pos hdestination, if_pos hdestination, if_neg hnot]
      · rw [if_neg hdestination, if_neg hdestination]
  refine ⟨?_, fun id => ?_, ?_, ?_, ?_, ?_⟩
  · intro entry hentry _
    refine ⟨(husable entry hentry).2, ?_⟩
    have hmem : (entry.id, syncKey entry) ∈ node.fields.linkSyncStates.map fun entry =>
        (entry.id, syncKey entry) := by
      rw [← hkeys]
      exact List.mem_map_of_mem hentry
    obtain ⟨before, hbefore, hpair⟩ := List.mem_map.mp hmem
    obtain ⟨made, hmade, hid⟩ := hown.created before hbefore
    rw [hsame.created]
    exact ⟨made, hmade, (Prod.mk.inj hpair).1.symm.trans hid⟩
  · have hfilter : registered.fields.linkSyncStates.filter Ref.isValid =
        registered.fields.linkSyncStates :=
      List.filter_eq_self.mpr fun entry hentry => (husable entry hentry).1
    rw [hfilter, syncCount_eq_of_map_key hkeys, hown.count, hsame.shares]
  · rw [hsame.shares]
    exact honce
  · intro entry hentry state _ hstate hid
    obtain ⟨old, hold, hkey, heq⟩ := horigin entry hentry state hstate
    have hsource : old.shareId = sourceShareId := hkey.symm.trans hid
    rw [if_neg (by rw [hsource]; exact hne), if_pos hsource] at heq
    rw [heq, hsame.journal]
    exact sourceComplete_completedFrom hold node.journal
  · intro entry hentry state _ hstate hid
    obtain ⟨old, hold, hkey, heq⟩ := horigin entry hentry state hstate
    rw [if_pos (hkey.symm.trans hid)] at heq
    rw [heq]
    exact ⟨rfl, rfl⟩
  · intro entry hentry state _ hstate hsource hdestination
    obtain ⟨old, hold, hkey, heq⟩ := horigin entry hentry state hstate
    rw [if_neg (by rw [← hkey]; exact hdestination),
      if_neg (by rw [← hkey]; exact hsource)] at heq
    rw [heq]
    exact hold

end Established

section Necessary

variable {env : StepEnv} {replica : Replica α ε} {sourceEndpoint : Bytes}
  {frame : NodeStateFrame} {imported : ImportedNode α ε} {root : SharedNode α ε}
  {snapshot : BaseSnapshot α} {kept own : List (Ref LinkSyncState)}

/-- Registering keeps the ids and the relationships of all sync states. -/
theorem Registration.map_key {completed registered : SharedNode α ε} {index : Nat}
    {state : LinkSyncState}
    (h : Registration env imported frame completed registered index state) :
    registered.fields.linkSyncStates.map (fun entry => (entry.id, syncKey entry)) =
      imported.node.fields.linkSyncStates.map fun entry => (entry.id, syncKey entry) := by
  obtain ⟨sourceIndex, hsource⟩ := h.source
  have hcompleted : completed.fields.linkSyncStates.map (fun entry =>
      (entry.id, syncKey entry)) = imported.node.fields.linkSyncStates.map fun entry =>
        (entry.id, syncKey entry) := by
    unfold completeSourceState at hsource
    obtain ⟨found, -, hsource⟩ := except_bind_eq_ok_iff.mp hsource
    obtain ⟨-, -, hsource⟩ := except_bind_eq_ok_iff.mp hsource
    obtain ⟨committed, hcommitted, hsource⟩ := except_bind_eq_ok_iff.mp hsource
    cases hsource
    exact map_key_of_commitLinkSyncEvent hcommitted
  rcases h.noted with ⟨-, rfl⟩ | ⟨-, -, hnoted⟩
  · exact hcompleted
  · exact (map_key_of_commitLinkSyncEvent hnoted).trans hcompleted

variable {aether app}

/-- Production resolves no generated id before something is created there. -/
theorem Admission.find_generated {parsed : RamDomainStorage}
    {validated : ValidatedSnapshot}
    (h : Admission aether app env replica sourceEndpoint frame imported parsed validated
      root) (hfresh : FreshIds aether app env replica frame.payload) (n : Nat) :
    productionFind aether app replica.others replica.runtime.nodes
      (replica.storage.perform (.commitObjectGraph validated.graph)) (env.ids n) =
      none := by
  rw [h.find_eq_before aether app hfresh.scratch (hfresh.apart n)
    (hfresh.notInPayload n parsed h.parsed_eq)]
  exact hfresh.unused n

/-- A Node with an initial entry left, or with a Share but no state, is not what
the receiver has to have. -/
theorem initialEntriesRemoved_of_established {parsed : RamDomainStorage}
    {validated : ValidatedSnapshot} {completed registered : SharedNode α ε} {index : Nat}
    {state : LinkSyncState} {sourceShareId destinationShareId packetId : ObjId}
    (hadmission : Admission aether app env replica sourceEndpoint frame imported parsed
      validated root) (hfresh : FreshIds aether app env replica frame.payload)
    (h : ImportedTrace app env frame imported root snapshot kept own)
    (hregistration : Registration env imported frame completed registered index state)
    (hestablished : LocalSyncEstablished registered sourceShareId destinationShareId
      packetId) : InitialEntriesRemoved root := by
  have hkeys := hregistration.map_key
  have hsame := hregistration.sameShared
  -- An imported entry that is valid is loaded, and was created here.
  have hentry : ∀ entry ∈ imported.node.fields.linkSyncStates, entry.isValid = true →
      (syncKey entry).isSome = true ∧ ∃ made ∈ imported.node.fields.created,
        entry.id = made.stateId := by
    intro entry hmem hvalid
    have hpair : (entry.id, syncKey entry) ∈ registered.fields.linkSyncStates.map
        fun entry => (entry.id, syncKey entry) := by
      rw [hkeys]
      exact List.mem_map_of_mem hmem
    obtain ⟨other, hother, heq⟩ := List.mem_map.mp hpair
    obtain ⟨hid, hkey⟩ := Prod.mk.inj heq
    obtain ⟨hloaded, made, hmade, hmadeId⟩ := hestablished.created other hother
      (by rw [Ref.isValid, hid]; exact hvalid)
    rw [hsame.created] at hmade
    obtain ⟨value, hvalue⟩ := Ref.isLoaded_iff.mp hloaded
    exact ⟨by rw [← hkey, syncKey, hvalue]; rfl, made, hmade, hid.symm.trans hmadeId⟩
  have hstates := h.trace.sync_eq
  change _ = kept ++ unloadedSuffix (stashedStates root) ++ own at hstates
  have hvalid : ∀ entry ∈ stashedStates root, entry.isValid = true := h.start.valid
  have hsplit := loadedPrefix_append_unloadedSuffix (stashedStates root)
  -- No entry of the payload is in the way of the replay.
  have hsuffix : unloadedSuffix (stashedStates root) = [] := by
    cases hcases : unloadedSuffix (stashedStates root) with
    | nil => rfl
    | cons blocked rest =>
        have hmem : blocked ∈ stashedStates root := by
          rw [← hsplit, hcases]
          simp
        obtain ⟨hkey, -⟩ := hentry blocked (by rw [hstates, hcases]; simp)
          (hvalid blocked hmem)
        rw [syncKey, unloadedSuffix_head hcases] at hkey
        cases hkey
  rw [hsuffix, List.append_nil] at hsplit
  -- A kept entry was loaded, so its id is none that was generated here.
  have hkept : kept = [] := by
    rw [List.eq_nil_iff_forall_not_mem]
    intro entry hmem
    obtain ⟨hentryValid, hloaded⟩ := h.trace.kept_usable h.start entry hmem
    obtain ⟨-, made, hmade, hid⟩ := hentry entry (by rw [hstates]; simp [hmem]) hentryValid
    obtain ⟨n, hn, -⟩ := h.trace.created_ids made hmade
    have hstashed : entry ∈ stashedStates root :=
      mem_of_mem_loadedPrefix (h.trace.kept_sublist.subset hmem)
    obtain ⟨object, shared, states, -, -, hloads⟩ := exists_loadedFrom aether hadmission.load
    obtain ⟨stateId, -, hload⟩ := forall₂_exists_of_mem_right hloads
      (List.mem_filter.mp hstashed).1
    unfold loadLinkSyncState at hload
    have hnone := hadmission.find_generated hfresh (2 * n)
    obtain ⟨value, hvalue⟩ := Ref.isLoaded_iff.mp hloaded
    split at hload
    case isTrue =>
      cases hload
      cases hvalue
    case isFalse =>
      split at hload
      case h_1 =>
        cases hload
        cases hvalue
      case h_2 found hfound =>
        split at hload
        case h_2 => cases hload
        case h_1 =>
          cases hload
          rw [← hn, ← hid, hfound] at hnone
          cases hnone
  refine ⟨unloadedSuffix_eq_nil_iff.mp hsuffix, fun base hbase id => ?_⟩
  cases h.base.symm.trans hbase
  constructor
  · -- A base share that is left is the only one of its id and has no state.
    by_contra hlt
    have hleft : removeCount root.journal id < shareCount snapshot.shares id := by omega
    have hshares : shareCount imported.node.fields.shares id =
        shareCount snapshot.shares id - removeCount root.journal id :=
      h.trace.share_left id hleft
    have honce := hestablished.shareOnce id
    have hcount := hestablished.oneEach id
    rw [hsame.shares, hshares] at honce hcount
    have hpos : 0 < syncCount own id := by
      have hfilter : registered.fields.linkSyncStates.filter Ref.isValid =
          registered.fields.linkSyncStates := by
        refine List.filter_eq_self.mpr fun entry hmem => ?_
        have hpair : (entry.id, syncKey entry) ∈ imported.node.fields.linkSyncStates.map
            fun entry => (entry.id, syncKey entry) := by
          rw [← hkeys]
          exact List.mem_map_of_mem hmem
        obtain ⟨other, hother, heq⟩ := List.mem_map.mp hpair
        rw [hstates, hkept, hsuffix, List.append_nil, List.nil_append] at hother
        rw [Ref.isValid, ← (Prod.mk.inj heq).1]
        exact (h.trace.own_usable hfresh.valid other hother).1
      rw [hfilter, syncCount_eq_of_map_key hkeys, hstates, hkept, hsuffix,
        List.append_nil, List.nil_append] at hcount
      omega
    obtain ⟨hle, -⟩ := h.trace.own_share id hpos
    exact absurd hle (not_le.mpr hleft)
  · have hcount := h.trace.kept_count id
    change syncCount kept id = syncCount (loadedPrefix (stashedStates root)) id - _ at hcount
    rw [hsplit, hkept] at hcount
    simp only [syncCount, List.countP_nil] at hcount ⊢
    omega

end Necessary

section ChatReplicas

/-- The ids of the receiver are fresh for a payload without them. -/
theorem receiverEnv_freshIds (bound : Bool) {objects : List ChatObject}
    (hscratch : ∀ k < 64, (storageOf objects).layers? ⟨UInt32.ofNat (4000 + k)⟩ = none)
    (hids : ∀ k < 64, (storageOf objects).layers? ⟨UInt32.ofNat (1000 + k)⟩ = none) :
    FreshIds chatAether chatRoom (receiverEnv bound) waitingClient (payloadOf objects) where
  scratch := receiverEnv_scratchIdsFresh bound hscratch
  valid := forall_idsFrom (fun id => id.isValid = true) 1000 (by decide)
  unused _ := rfl
  notInPayload n parsed hparsed := by
    rw [deserialize_payloadOf hparsed]
    exact forall_idsFrom (fun id => (storageOf objects).layers? id = none) 1000 hids n
  apart m n := by
    refine forall_idsFrom (fun id => id ≠ idsFrom 4000 n) 1000 (fun j hj => ?_) m
    refine forall_idsFrom (fun id => (⟨UInt32.ofNat (1000 + j)⟩ : ObjId) ≠ id) 4000
      (fun k hk heq => ?_) n
    have hnat := congrArg (fun id => id.id.toNat) heq
    simp only [UInt32.toNat_ofNat'] at hnat
    omega

/-- A sync state of the sender, complete already. -/
def senderState (id shareId link : UInt32) : ChatObject :=
  (⟨id⟩, { classId := linkSyncStateClassId
           body := .linkSyncState { LinkSyncState.fresh ⟨shareId⟩ ⟨link⟩ with
             initialSyncPhase := .complete } })

/-- A room whose relationships live in the base only, with the sync states of the
sender smuggled into its local field. -/
def carriesSenderStates : List ChatObject :=
  [linkObject 12 hostEndpoint, linkObject 13 clientEndpoint,
    senderState 30 14 12, senderState 31 15 13,
    roomObject 11 0 [share 14 12, share 15 13] [] [] [],
    roomObject 10 11 [share 14 12, share 15 13] [] [] [⟨30⟩, ⟨31⟩]]

end ChatReplicas

end AppTraverse
