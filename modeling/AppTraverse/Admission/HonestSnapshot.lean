import AppTraverse.Admission.ProductionLoad
import AppTraverse.Delivery.SyncOutcomes
import AppTraverse.Runtime.SenderRuns

/-!
# Snapshots of an honest sender

A SharedNode that only its own operations built is frozen, sent, validated in a scratch
Domain and replayed in production.  The copy is faithful, and it is admitted unless
compaction folded the Event that opened the sender's own relationship: a relationship that
lives in the base only gets no local sync state from the replay.
-/

namespace AppTraverse

open Foundations

variable {α ε : Type}

/-- What Aether saves of an object of a registered class is the chain of that class. -/
def Aether.SavesChains (aether : Aether α ε) : Prop :=
  ∀ (id : ObjId) (object : StoredObject α ε), id.isValid = true →
    aether.hasFactory object.classId = true →
    ∃ info, validateStoredClassChain aether id (aether.saveObject object) = some info ∧
      info.mostDerivedClassId = object.classId

/-- The classes of a SharedNode, of its Events and of the Links of its Domain are
registered, and the Events are Events of the SharedNode. -/
structure ClassesRegistered (aether : Aether α ε) (app : AppClass α ε)
    (links : ObjId → Option Link) (classId : ClassId) : Prop where
  root : aether.hasFactory classId = true
  node : aether.derives aether.nodeClassId classId = true
  sharedNode : aether.derives aether.sharedNodeClassId classId = true
  links : ∀ id link, links id = some link → aether.hasFactory link.classId = true
  events : ∀ event, aether.hasFactory (aether.classIdOfEvent app event) = true
  targets : ∀ event, aether.derives (app.eventTargetClassId event) classId = true

/-- Every endpoint has one open Share, the sender and the receiver among them. -/
structure OneShareEach (shares : List Share) (senderEndpoint receiverEndpoint : Bytes)
    (own peer : Share) : Prop where
  endpoints : ∀ share ∈ shares, ∃ endpoint, shareEndpoint share = some endpoint ∧ endpoint ≠ []
  distinct : (shares.map shareEndpoint).Nodup
  own : own ∈ shares ∧ shareEndpoint own = some senderEndpoint
  peer : peer ∈ shares ∧ shareEndpoint peer = some receiverEndpoint
  apart : senderEndpoint ≠ receiverEndpoint

/-- A replica that expects the SharedNode from the endpoint and holds no object of it, in
surroundings that generate ids which nothing has. -/
structure ReadyFor (aether : Aether α ε) (app : AppClass α ε) (env : StepEnv)
    (replica : Replica α ε) (senderEndpoint receiverEndpoint : Bytes)
    (node : SharedNode α ε) : Prop where
  endpoint : replica.runtime.localEndpoint = receiverEndpoint
  expected : ∃ expected, expectedClassOf replica.runtime senderEndpoint node.objId =
    some expected ∧ ∀ classId ∈ expected, classId = node.classId
  unoccupied : ∀ entry ∈ reachableObjects aether app .networkShared node,
    occupiedAtReceiver aether app replica.others replica.runtime.nodes replica.storage
      entry.1 = false
  scratchValid : ∀ n, (env.scratch.ids n).isValid = true
  scratchFresh : ∀ n, occupiedAtReceiver aether app replica.others replica.runtime.nodes
    replica.storage (env.scratch.ids n) = false
  scratchApart : ∀ n, ∀ entry ∈ reachableObjects aether app .networkShared node,
    entry.1 ≠ env.scratch.ids n
  ids : ∀ n, (env.ids n).isValid = true

/-- The relationship is one of the base snapshot: the Event that opened it was folded. -/
def IsFolded (node : SharedNode α ε) (shareId : ObjId) : Prop :=
  ∃ snapshot, node.base.obj = some snapshot ∧ shareId ∈ snapshot.shares.map Share.shareId

/-- The copy has everything that is shared of the SharedNode. -/
structure IsFaithfulCopy (node copy : SharedNode α ε) : Prop where
  objId : copy.objId = node.objId
  classId : copy.classId = node.classId
  shares : copy.fields.shares = node.fields.shares
  journal : copy.journal = node.journal
  baseId : copy.base.id = node.base.id
  base : copy.base.obj.map BaseSnapshot.toSharedState =
    node.base.obj.map BaseSnapshot.toSharedState
  app : copy.fields.app = node.fields.app

section Storable

variable {aether : Aether α ε} {app : AppClass α ε} {links : ObjId → Option Link}

/-- An object that `ValidateStoredClassChains` accepts. -/
def IsStorable (aether : Aether α ε) (entry : ObjId × StoredObject α ε) : Prop :=
  entry.1.isValid = true ∧ aether.hasFactory entry.2.classId = true

theorem isStorable_of_link {classId : ClassId}
    (hclasses : ClassesRegistered aether app links classId) {link : Ref Link}
    (hlink : link.IsLinkOf links) :
    ∀ entry ∈ (linkObjects link : List (ObjId × StoredObject α ε)), IsStorable aether entry := by
  obtain ⟨value, hvalue⟩ := Ref.isLoaded_iff.mp hlink.loaded
  intro entry hentry
  rw [linkObjects, hvalue, List.mem_singleton] at hentry
  subst hentry
  have hlinks : links link.id = some value := by rw [← hlink.obj_eq, hvalue]
  exact ⟨hlink.valid, hclasses.links link.id value hlinks⟩

theorem isStorable_of_shares {classId : ClassId}
    (hclasses : ClassesRegistered aether app links classId) {shares : List Share}
    (hshares : ∀ share ∈ shares, share.link.IsLinkOf links) :
    ∀ entry ∈ (shareObjects shares : List (ObjId × StoredObject α ε)),
      IsStorable aether entry := by
  intro entry hentry
  obtain ⟨share, hshare, hlink⟩ := List.mem_flatMap.mp hentry
  exact isStorable_of_link hclasses (hshares share hshare) entry hlink

/-- Everything the SharedNode reaches can be stored. -/
theorem isStorable_of_reachable {history : TopologyHistory α ε}
    (h : SenderInvariant app links history)
    (hclasses : ClassesRegistered aether app links history.node.classId) :
    ∀ entry ∈ reachableObjects aether app .networkShared history.node,
      IsStorable aether entry := by
  intro entry hentry
  simp only [reachableObjects, List.append_nil, List.mem_cons, List.mem_append] at hentry
  rcases hentry with rfl | ((hbase | hevent) | hshare)
  · exact ⟨h.names.root.1, hclasses.root⟩
  · obtain ⟨snapshot, hsnapshot, -⟩ := h.topology.base
    rw [baseObjects, hsnapshot] at hbase
    rcases List.mem_cons.mp hbase with rfl | hshare
    · exact ⟨h.topology.baseValid, hclasses.root⟩
    · exact isStorable_of_shares hclasses (h.names.baseLinks snapshot hsnapshot) entry hshare
  · obtain ⟨record, hrecord, hevent⟩ := List.mem_flatMap.mp hevent
    obtain ⟨hresolved, -⟩ := h.names.events record hrecord
    obtain ⟨value, hvalue⟩ := Ref.isLoaded_iff.mp hresolved.loaded
    rw [eventObjects, hvalue] at hevent
    rcases List.mem_cons.mp hevent with rfl | hlink
    · exact ⟨hresolved.valid, hclasses.events value⟩
    · cases value with
      | addShare link access =>
          exact isStorable_of_link hclasses
            (h.names.eventLinks record hrecord link access hvalue) entry hlink
      | removeShare shareId => cases hlink
      | changeShareAccess shareId access => cases hlink
      | app event => cases hlink
  · exact isStorable_of_shares hclasses (h.names.shareLinks h.topology) entry hshare

/-- The chains of a saved graph are coherent. -/
theorem exists_chains {objects : List (ObjId × StoredObject α ε)}
    (hchains : aether.SavesChains) (hstorable : ∀ entry ∈ objects, IsStorable aether entry) :
    ∃ chains, validateStoredClassChains aether (savedObjects aether objects) = some chains := by
  refine exists_mapM_option fun live hlive => ?_
  obtain ⟨object, hobject, heq⟩ :=
    exists_of_layers?_savedObjects aether (RamDomainStorage.mem_live_iff.mp hlive)
  obtain ⟨hvalid, hclass⟩ := hstorable _ hobject
  obtain ⟨info, hinfo, -⟩ := hchains live.1 object hvalid hclass
  exact ⟨info, heq ▸ hinfo⟩

/-- The root of a saved graph has the class that is expected. -/
theorem rootClassIsExpected_savedObjects {objects : List (ObjId × StoredObject α ε)}
    (hchains : aether.SavesChains) (hagree : ObjectsAgree objects)
    {id : ObjId} {object : StoredObject α ε} (hmem : (id, object) ∈ objects)
    (hstorable : IsStorable aether (id, object))
    (hderives : aether.derives aether.sharedNodeClassId object.classId = true)
    {expected : Option ClassId} (hexpected : ∀ classId ∈ expected, classId = object.classId)
    {chains : List StoredClassChainInfo}
    (hvalidate : validateStoredClassChains aether (savedObjects aether objects) = some chains) :
    rootClassIsExpected aether chains id expected = true := by
  have hlayers := layers?_savedObjects aether hagree hmem
  obtain ⟨info, hinfo, hclass⟩ := hchains id object hstorable.1 hstorable.2
  -- The root is among the live objects, so the search for its chain finds one.
  obtain ⟨listed, hlisted, hchain⟩ := forall₂_exists_of_mem_left
    (mapM_option_eq_some_iff.mp hvalidate) (RamDomainStorage.mem_live_iff.mpr hlayers)
  have hsame : listed = info := Option.some.inj (hchain.symm.trans hinfo)
  have hid : listed.objId = id := (mostDerived_of_validateStoredClassChain aether hchain).1
  unfold rootClassIsExpected
  cases hfind : chains.find? fun info => decide (info.objId = id) with
  | none =>
      have hnone := List.find?_eq_none.mp hfind listed hlisted
      simp [hid] at hnone
  | some found =>
      have hfoundId : found.objId = id := by simpa using List.find?_some hfind
      obtain ⟨layers, hfoundLayers, hfound⟩ := mem_of_validateStoredClassChains aether hvalidate
        (List.mem_of_find?_eq_some hfind)
      rw [hfoundId, hlayers] at hfoundLayers
      rw [hfoundId, ← Option.some.inj hfoundLayers, hinfo] at hfound
      rw [← Option.some.inj hfound]
      show (aether.derives aether.sharedNodeClassId info.mostDerivedClassId && _) = true
      rw [hclass, hderives, Bool.true_and]
      cases expected with
      | none => rfl
      | some classId => exact decide_eq_true (hexpected classId rfl).symm

end Storable

section Shares

variable {aether : Aether α ε} {app : AppClass α ε} {links : ObjId → Option Link}
  {history : TopologyHistory α ε} {senderEndpoint receiverEndpoint : Bytes} {own peer : Share}

/-- The identities of open relationships are valid. -/
theorem SenderInvariant.shareIds (h : SenderInvariant app links history) :
    ∀ share ∈ history.node.fields.shares, share.shareId.isValid = true := fun share hshare =>
  h.drawnValid _ (h.topology.drawn _ (h.topology.recorded share hshare))

/-- The search for an open relationship finds it. -/
theorem getElem?_findShareIndexForShare {shares : List Share} (hids : SharesUnique shares)
    {share : Share} (hshare : share ∈ shares) :
    shares[findShareIndexForShare shares share.shareId]? = some share := by
  have hopen : 0 < shareCount shares share.shareId :=
    shareCount_pos_iff.mpr (List.mem_map_of_mem hshare)
  obtain ⟨before, found, after, hsplit, hmatch, -, hindex⟩ :=
    exists_split_of_findIdx_lt (findShareIndexForShare_lt_iff.mpr hopen)
  have hfound : found = share := by
    refine List.inj_on_of_nodup_map hids.ids ?_ hshare (of_decide_eq_true hmatch)
    rw [hsplit]
    exact List.mem_append_right _ List.mem_cons_self
  rw [findShareIndexForShare, hindex, hsplit, ← hfound]
  simp

/-- The open Shares pass the checks of an admission. -/
theorem sharesAreAdmissible_of_oneShareEach (h : SenderInvariant app links history)
    (hshares : OneShareEach history.node.fields.shares senderEndpoint receiverEndpoint own peer) :
    sharesAreAdmissible history.node.fields.shares = true := by
  rw [sharesAreAdmissible, List.all_eq_true]
  rintro ⟨share, index⟩ hentry
  have hget := List.mem_zipIdx_iff_getElem?.mp hentry
  have hshare : share ∈ history.node.fields.shares := List.mem_of_getElem? hget
  obtain ⟨endpoint, hendpoint, hnonempty⟩ := hshares.endpoints share hshare
  -- Two positions of one relationship are one position.
  have hfind := getElem?_findShareIndexForShare h.topology.unique hshare
  have hindex : findShareIndexForShare history.node.fields.shares share.shareId = index := by
    have hlt := (List.getElem?_eq_some_iff.mp hget).1
    refine ((List.getElem?_inj (by simpa using hlt) h.topology.unique.ids).mp ?_).symm
    rw [List.getElem?_map, List.getElem?_map, hget, hfind]
  simp only [h.shareIds share hshare, hindex, hendpoint, decide_true, Bool.true_and,
    Bool.and_true]
  simpa using hnonempty

/-- The packet is addressed to the receiver. -/
theorem addressedToThisReplica_of_oneShareEach (h : SenderInvariant app links history)
    (hshares : OneShareEach history.node.fields.shares senderEndpoint receiverEndpoint own peer) :
    addressedToThisReplica history.node.fields.shares receiverEndpoint senderEndpoint
      peer.shareId = true := by
  have hpeer : shareEndpointOf history.node.fields.shares peer.shareId =
      some receiverEndpoint := by
    rw [shareEndpointOf, getElem?_findShareIndexForShare h.topology.unique hshares.peer.1]
    exact hshares.peer.2
  have hown : topologyKnowsEndpoint history.node.fields.shares senderEndpoint = true :=
    List.any_eq_true.mpr ⟨own, hshares.own.1, decide_eq_true hshares.own.2⟩
  simp [addressedToThisReplica, hshares.apart, hpeer, hown]

/-- The sender has one relationship. -/
theorem sharesOfEndpoint_of_oneShareEach {shares : List Share}
    (hshares : OneShareEach shares senderEndpoint receiverEndpoint own peer) :
    sharesOfEndpoint shares senderEndpoint = [own] := by
  obtain ⟨before, after, hsplit⟩ := List.mem_iff_append.mp hshares.own.1
  have hdistinct := hshares.distinct
  rw [hsplit, List.map_append, List.map_cons, List.nodup_append, List.nodup_cons] at hdistinct
  obtain ⟨-, ⟨hafter, -⟩, hbefore⟩ := hdistinct
  have hown := hshares.own.2
  have hnotBefore : before.filter (fun share =>
      decide (shareEndpoint share = some senderEndpoint)) = [] := by
    rw [List.filter_eq_nil_iff]
    intro share hshare hsame
    rw [decide_eq_true_eq] at hsame
    refine hbefore (shareEndpoint share) (List.mem_map_of_mem hshare) (shareEndpoint own)
      List.mem_cons_self ?_
    rw [hsame, hown]
  have hnotAfter : after.filter (fun share =>
      decide (shareEndpoint share = some senderEndpoint)) = [] := by
    rw [List.filter_eq_nil_iff]
    intro share hshare hsame
    rw [decide_eq_true_eq] at hsame
    exact hafter (List.mem_map.mpr ⟨share, hshare, by rw [hsame, hown]⟩)
  rw [sharesOfEndpoint, hsplit, List.filter_append, hnotBefore, List.filter_cons, hown,
    hnotAfter]
  simp

end Shares

section Replay

variable {app : AppClass α ε} {history : TopologyHistory α ε}

/-- What a replay at a receiver makes of the fields: no sync state travels, so each state
there is one that the replay created. -/
structure ReplayedThere (ids : Nat → ObjId) (node : SharedNode α ε)
    (snapshot : BaseSnapshot α) (applied : Applied (SharedNodeFields α)) : Prop where
  complete : applied.complete = true
  shared : applied.fields.shared = node.fields.shared
  usable : StatesUsable applied.fields.linkSyncStates
  states : ∀ share ∈ node.fields.shares,
    (0 < syncCount applied.fields.linkSyncStates share.shareId ↔
      shareCount snapshot.shares share.shareId = 0)
  created : ∀ made ∈ applied.fields.created, ∃ n, made.baseId = ids n

/-- Without a sync state to start from, the journal replays over the base. -/
theorem exists_replayedThere (h : TopologyInvariant app history) {ids : Nat → ObjId}
    (hids : ∀ n, (ids n).isValid = true) {fields : SharedNodeFields α}
    (hempty : ∀ entry ∈ fields.linkSyncStates, entry.isValid = false)
    (hcreated : fields.created = []) {snapshot : BaseSnapshot α}
    (hreplay : sharedReplay app snapshot.toSharedState history.node.journal =
      some history.node.fields.shared) :
    ∃ applied, applyRecords (app.nodeClass ids) ((app.nodeClass ids).loadBase fields snapshot)
        history.node.journal = .ok applied ∧
      ReplayedThere ids history.node snapshot applied := by
  have hstash : ((app.nodeClass ids).loadBase fields snapshot).linkSyncStates = [] := by
    show fields.linkSyncStates.filter Ref.isValid = []
    rw [List.filter_eq_nil_iff]
    intro entry hentry
    simp [hempty entry hentry]
  have hnoStates : StatesUsable ([] : List (Ref LinkSyncState)) := nofun
  have hfrom : StatesOverStash [] [] ((app.nodeClass ids).loadBase fields snapshot) :=
    statesOverStash_start hstash
  obtain ⟨applied, own, hrun, hcomplete, hcount, hshared, hover⟩ :=
    applyRecords_of_sharedReplay hids hnoStates (fun _ _ _ _ => rfl) hfrom hreplay
  have hstart := rebuildStart_replayStart app ids snapshot hcreated
  obtain ⟨⟨kept, made, htrace⟩, -⟩ := applyRecords_invariant (app.nodeClass ids)
    (replayTrace_stepPreserves (ε := ε) hstart hids) ⟨_, [], replayTrace_start hstart⟩ hrun
  rw [hcount, List.take_length] at htrace
  have hstates : applied.fields.linkSyncStates = own := by
    rw [hover.states_eq, List.nil_append]
  have hnone : kept = [] := by
    have hsublist := htrace.kept_sublist
    rw [show (rebuildStart app ids fields snapshot).linkSyncStates = [] from hstash] at hsublist
    exact List.sublist_nil.mp hsublist
  have hmade : applied.fields.linkSyncStates = made := by
    have hsync := htrace.sync_eq
    rwa [show (rebuildStart app ids fields snapshot).linkSyncStates = [] from hstash, hnone]
      at hsync
  refine ⟨applied, hrun, hcomplete, hshared, hstates ▸ hover.usable, ?_, ?_⟩
  · intro share hshare
    have hshares : applied.fields.shares = history.node.fields.shares :=
      congrArg SharedState.shares hshared
    have hopen : shareCount applied.fields.shares share.shareId = 1 := by
      rw [hshares]
      have hle := h.unique.shareCount_le_one share.shareId
      have hpos := shareCount_pos_iff.mpr (List.mem_map_of_mem (f := Share.shareId) hshare)
      omega
    -- The journal closes no relationship that is open now.
    have hremoved : removeCount history.node.journal share.shareId = 0 := by
      rw [removeCount, List.countP_eq_zero]
      intro record hrecord hremove
      have hclosed := (h.closed record hrecord share.shareId hremove).2
      rw [← hshares, hopen] at hclosed
      exact Nat.one_ne_zero hclosed
    have hkept : syncCount kept share.shareId = 0 := by
      rw [hnone]
      rfl
    rw [hmade]
    constructor
    · intro hpos
      have hle := (htrace.own_share share.shareId hpos).1
      change shareCount snapshot.shares share.shareId ≤ _ at hle
      omega
    · intro hzero
      have hstate := htrace.share_state share.shareId
        (by
          change shareCount snapshot.shares share.shareId ≤ _
          omega) hopen
      omega
  · intro entry hentry
    obtain ⟨n, -, hbase⟩ := htrace.created_ids entry hentry
    exact ⟨_, hbase⟩

end Replay

section Scratch

variable {aether : Aether α ε} {app : AppClass α ε} {links : ObjId → Option Link}
  {history : TopologyHistory α ε} {senderEndpoint receiverEndpoint : Bytes} {own peer : Share}

/-- The base travels with everything that is shared of it. -/
theorem exists_networkBase (h : TopologyInvariant app history) :
    ∃ snapshot, (networkView history.node).base.obj = some snapshot ∧
      sharedReplay app snapshot.toSharedState history.node.journal =
        some history.node.fields.shared ∧
      ∀ id, IsFolded history.node id ↔ 0 < shareCount snapshot.shares id := by
  obtain ⟨snapshot, hbase, hreplay⟩ := h.base
  refine ⟨{ snapshot with linkSyncStates := snapshot.linkSyncStates.map fun _ => .empty }, ?_,
    hreplay, fun id => ?_⟩
  · show history.node.base.obj.map _ = _
    rw [hbase]
    rfl
  · rw [shareCount_pos_iff]
    constructor
    · rintro ⟨other, hother, hid⟩
      cases hbase.symm.trans hother
      exact hid
    · exact fun hid => ⟨snapshot, hbase, hid⟩

/-- The candidate passes the checks before the replay. -/
theorem admissibleBeforeReplay_networkView (h : SenderInvariant app links history)
    (hclasses : ClassesRegistered aether app links history.node.classId) :
    admissibleBeforeReplay aether app (networkView history.node) = true := by
  obtain ⟨snapshot, hbase, -⟩ := exists_networkBase h.topology
  have hvalid : (networkView history.node).base.isValid = true := h.topology.baseValid
  have hloaded : (networkView history.node).base.isLoaded = true :=
    Ref.isLoaded_iff.mpr ⟨snapshot, hbase⟩
  rw [admissibleBeforeReplay, hvalid, hloaded, Bool.true_and, Bool.true_and, List.all_eq_true]
  intro record hrecord
  have hcommitted := h.committed record hrecord
  obtain ⟨event, hevent⟩ := Ref.isLoaded_iff.mp hcommitted.loaded
  rw [recordIsAdmissible, hcommitted.valid, hevent, Bool.true_and]
  show (aether.derives (aether.targetClassId app event) history.node.classId &&
    decide (record.order.timestampUs ≠ 0)) = true
  rw [decide_eq_true hcommitted.timestamp, Bool.and_true]
  cases event with
  | app event => exact hclasses.targets event
  | addShare link access => exact hclasses.sharedNode
  | removeShare shareId => exact hclasses.sharedNode
  | changeShareAccess shareId access => exact hclasses.sharedNode

/-- The candidate is admissible at the receiver. -/
theorem snapshotIsAdmissible_networkView (h : SenderInvariant app links history)
    (hclasses : ClassesRegistered aether app links history.node.classId)
    (hshares : OneShareEach history.node.fields.shares senderEndpoint receiverEndpoint own peer)
    {ids : Nat → ObjId} (hids : ∀ n, (ids n).isValid = true) :
    ∃ snapshot applied, (networkView history.node).base.obj = some snapshot ∧
      ReplayedThere ids history.node snapshot applied ∧
      (∀ id, IsFolded history.node id ↔ 0 < shareCount snapshot.shares id) ∧
      snapshotIsAdmissible aether app ids (networkView history.node) receiverEndpoint
        senderEndpoint peer.shareId = .ok ({ networkView history.node with
          fields := applied.fields
          appliedJournalSize := some applied.count
          generation := 1 + applied.count }, true) := by
  obtain ⟨snapshot, hbase, hreplay, hfolded⟩ := exists_networkBase h.topology
  have hempty : ∀ entry ∈ (networkView history.node).fields.linkSyncStates,
      entry.isValid = false := by
    intro entry hentry
    obtain ⟨_, -, rfl⟩ := List.mem_map.mp hentry
    rfl
  obtain ⟨applied, hrun, hthere⟩ :=
    exists_replayedThere h.topology hids hempty rfl hreplay
  refine ⟨snapshot, applied, hbase, hthere, hfolded, ?_⟩
  have hopen : applied.fields.shares = history.node.fields.shares :=
    congrArg SharedState.shares hthere.shared
  have hjournal : (networkView history.node).journal = history.node.journal := rfl
  rw [snapshotIsAdmissible, admissibleBeforeReplay_networkView h hclasses,
    tryRebuildFromBaseAndReplay_eq _ hbase, hjournal, hrun]
  simp only [bind, Except.bind, pure, Except.pure, hthere.complete, hopen,
    sharesAreAdmissible_of_oneShareEach h hshares,
    addressedToThisReplica_of_oneShareEach h hshares, Bool.not_true, Bool.false_eq_true,
    if_false]
  rfl

/-- The scratch Domain accepts the candidate exactly when the replay made a sync state for
the sender. -/
theorem validateInScratch_networkView (h : SenderInvariant app links history)
    (hclasses : ClassesRegistered aether app links history.node.classId)
    (hshares : OneShareEach history.node.fields.shares senderEndpoint receiverEndpoint own peer)
    {ids : Nat → ObjId} (hids : ∀ n, (ids n).isValid = true) {parsed : RamDomainStorage}
    (hload : loadSharedNode aether (parsed.find aether) history.node.objId =
      .ok (some (networkView history.node))) (packetId : ObjId) (payload : Bytes) :
    ∃ created : List CreatedLinkSyncState, (∀ made ∈ created, ∃ n, made.baseId = ids n) ∧
      (IsFolded history.node own.shareId →
        validateInScratch aether app ids parsed receiverEndpoint senderEndpoint
          ⟨packetId, history.node.objId, peer.shareId, payload⟩ = .ok none) ∧
      (¬ IsFolded history.node own.shareId →
        validateInScratch aether app ids parsed receiverEndpoint senderEndpoint
          ⟨packetId, history.node.objId, peer.shareId, payload⟩ =
          .ok (some ⟨storeObjects aether parsed (createdObjects aether created),
            own.shareId⟩)) := by
  obtain ⟨snapshot, applied, -, hthere, hfolded, hadmissible⟩ :=
    snapshotIsAdmissible_networkView h hclasses hshares hids
  have hopen : applied.fields.shares = history.node.fields.shares :=
    congrArg SharedState.shares hthere.shared
  have hclass : aether.derives aether.sharedNodeClassId (networkView history.node).classId =
      true := hclasses.sharedNode
  have hfind := findLinkSyncIndexForShare_eq_findIdx hthere.usable own.shareId
  have hstates := hthere.states own hshares.own.1
  have hlength : (applied.fields.linkSyncStates.findIdx fun entry =>
      decide (syncKey entry = some own.shareId)) < applied.fields.linkSyncStates.length ↔
      ¬ IsFolded history.node own.shareId := by
    rw [findIdx_lt_length_iff_countP_pos, hfolded]
    show 0 < syncCount applied.fields.linkSyncStates own.shareId ↔ _
    rw [hstates]
    omega
  have hvalidate : validateInScratch aether app ids parsed receiverEndpoint senderEndpoint
      ⟨packetId, history.node.objId, peer.shareId, payload⟩ =
      if (applied.fields.linkSyncStates.findIdx fun entry =>
          decide (syncKey entry = some own.shareId)) < applied.fields.linkSyncStates.length then
        .ok (some ⟨storeObjects aether parsed (createdObjects aether applied.fields.created),
          own.shareId⟩)
      else
        .ok none := by
    simp only [validateInScratch, hload, hclass, hadmissible, hopen,
      sharesOfEndpoint_of_oneShareEach hshares, h.shareIds own hshares.own.1, hfind,
      bind, Except.bind, pure, Except.pure, Bool.not_true, Bool.false_eq_true, if_false]
  refine ⟨applied.fields.created, hthere.created, fun hin => ?_, fun hout => ?_⟩
  · rw [hvalidate, if_neg]
    exact fun hlt => hlength.mp hlt hin
  · rw [hvalidate, if_pos (hlength.mpr hout)]

end Scratch

/-- The frame of a frozen SharedNode. -/
def frozenFrame (aether : Aether α ε) (app : AppClass α ε) (node : SharedNode α ε)
    (packetId shareId : ObjId) : NodeStateFrame :=
  ⟨packetId, node.objId, shareId,
    serializeObjectGraph aether (buildNetworkSharedScratch aether app node)⟩

section Production

variable {aether : Aether α ε} {app : AppClass α ε} {links : ObjId → Option Link}
  {history : TopologyHistory α ε} {env : StepEnv} {replica : Replica α ε}
  {senderEndpoint receiverEndpoint : Bytes} {own peer : Share}

/-- The objects of the packet are at their ids in the graph to commit. -/
theorem layers?_validatedGraph (h : SenderInvariant app links history)
    (hready : ReadyFor aether app env replica senderEndpoint receiverEndpoint history.node)
    {created : List CreatedLinkSyncState}
    (hcreated : ∀ made ∈ created, ∃ n, made.baseId = env.scratch.ids n)
    {entry : ObjId × StoredObject α ε}
    (hentry : entry ∈ reachableObjects aether app .networkShared history.node) :
    (storeObjects aether (buildNetworkSharedScratch aether app history.node)
      (createdObjects aether created)).layers? entry.1 = some (aether.saveObject entry.2) := by
  rw [layers?_storeObjects_of_notMem]
  · exact layers?_savedObjects aether (objectsAgree_of_namesObjects h.names h.topology) hentry
  · intro object hobject hid
    obtain ⟨made, hmade, rfl⟩ := List.mem_map.mp hobject
    obtain ⟨n, hn⟩ := hcreated made hmade
    exact hready.scratchApart n entry hentry (hid.symm.trans hn)

/-- Nothing of the graph to commit exists at the receiver. -/
theorem collidesWithReceiver_of_ready
    (hready : ReadyFor aether app env replica senderEndpoint receiverEndpoint history.node)
    {created : List CreatedLinkSyncState}
    (hcreated : ∀ made ∈ created, ∃ n, made.baseId = env.scratch.ids n) :
    collidesWithReceiver aether app replica
      (storeObjects aether (buildNetworkSharedScratch aether app history.node)
        (createdObjects aether created)) = false := by
  rw [collidesWithReceiver, List.any_eq_false]
  intro live hlive
  rw [RamDomainStorage.mem_live_iff] at hlive
  rw [Bool.not_eq_true]
  by_cases hscratch : ∃ object ∈ createdObjects (α := α) (ε := ε) aether created,
      object.1 = live.1
  · obtain ⟨object, hobject, hid⟩ := hscratch
    obtain ⟨made, hmade, rfl⟩ := List.mem_map.mp hobject
    obtain ⟨n, hn⟩ := hcreated made hmade
    rw [← hid]
    show occupiedAtReceiver aether app replica.others replica.runtime.nodes replica.storage
      made.baseId = false
    rw [hn]
    exact hready.scratchFresh n
  · rw [layers?_storeObjects_of_notMem aether fun object hobject hid =>
      hscratch ⟨object, hobject, hid⟩] at hlive
    obtain ⟨object, hobject, -⟩ := exists_of_layers?_savedObjects aether hlive
    exact hready.unoccupied _ hobject

/-- Production finds the objects of the packet. -/
theorem findsAll_production (hlawful : aether.Lawful) (h : SenderInvariant app links history)
    (hready : ReadyFor aether app env replica senderEndpoint receiverEndpoint history.node)
    {created : List CreatedLinkSyncState}
    (hcreated : ∀ made ∈ created, ∃ n, made.baseId = env.scratch.ids n) :
    FindsAll (productionFind aether app replica.others replica.runtime.nodes
        (replica.storage.perform (.commitObjectGraph
          (storeObjects aether (buildNetworkSharedScratch aether app history.node)
            (createdObjects aether created)))))
      (reachableObjects aether app .networkShared history.node) := by
  intro entry hentry
  have hlayers := layers?_validatedGraph h hready hcreated hentry
  have hfree := hready.unoccupied entry hentry
  rw [occupiedAtReceiver, Bool.or_eq_false_iff] at hfree
  have hnone := Option.isSome_eq_false_iff.mp hfree.1
  rw [Option.isNone_iff_eq_none] at hnone
  rw [productionFind]
  change (findObject (_ ++ replica.storage.nodes.flatMap (liveNodeObjects aether app))
    entry.1).or ((RamDomainStorage.layers? (commitObjectGraph _ replica.storage.objects)
      entry.1).bind aether.loadObject) = _
  rw [hnone, layers?_commitObjectGraph, hlayers]
  exact hlawful.loadObject_saveObject entry.2

/-- An admitted Node is loaded as it was frozen, and replays to what it was. -/
theorem loadAdmittedNode_isFaithfulCopy (hlawful : aether.Lawful)
    (h : SenderInvariant app links history)
    (hclasses : ClassesRegistered aether app links history.node.classId)
    (hready : ReadyFor aether app env replica senderEndpoint receiverEndpoint history.node)
    {created : List CreatedLinkSyncState}
    (hcreated : ∀ made ∈ created, ∃ n, made.baseId = env.scratch.ids n) :
    ∃ node, loadAdmittedNode aether app env replica
        (storeObjects aether (buildNetworkSharedScratch aether app history.node)
          (createdObjects aether created)) history.node.objId = .ok node ∧
      IsFaithfulCopy history.node node := by
  have hload := loadSharedNode_of_findsAll
    (nodeIsResolved_of_namesObjects h.names h.topology) hclasses.node
    (findsAll_production hlawful h hready hcreated)
  obtain ⟨snapshot, hbase, hreplay, -⟩ := exists_networkBase h.topology
  have hempty : ∀ entry ∈ (networkView history.node).fields.linkSyncStates,
      entry.isValid = false := by
    intro entry hentry
    obtain ⟨_, -, rfl⟩ := List.mem_map.mp hentry
    rfl
  obtain ⟨applied, hrun, hthere⟩ :=
    exists_replayedThere h.topology hready.ids hempty rfl hreplay
  obtain ⟨node, hnode⟩ := replayFromBase_returns hbase hrun hthere.complete
  refine ⟨node, ?_, ?_⟩
  · simp only [loadAdmittedNode, hload, bind, Except.bind]
    exact hnode
  · obtain ⟨snapshot', applied', hbase', hrun', -, rfl⟩ := replayFromBase_keeps hnode
    cases hbase.symm.trans hbase'
    cases hrun.symm.trans hrun'
    refine ⟨rfl, rfl, congrArg SharedState.shares hthere.shared, rfl, rfl, ?_,
      congrArg SharedState.app hthere.shared⟩
    show (history.node.base.obj.map _).map BaseSnapshot.toSharedState = _
    rw [Option.map_map]
    rfl

/-- The frozen graph loads as what was frozen. -/
theorem loadSharedNode_buildNetworkSharedScratch (hlawful : aether.Lawful)
    (h : SenderInvariant app links history)
    (hclasses : ClassesRegistered aether app links history.node.classId) :
    loadSharedNode aether ((buildNetworkSharedScratch aether app history.node).find aether)
      history.node.objId = .ok (some (networkView history.node)) :=
  loadSharedNode_of_findsAll (nodeIsResolved_of_namesObjects h.names h.topology) hclasses.node
    (findsAll_savedObjects hlawful (objectsAgree_of_namesObjects h.names h.topology))

/-- What the sender freezes. -/
theorem freezeNetworkSharedNodeState_honest (hlawful : aether.Lawful)
    (h : SenderInvariant app links history)
    (hclasses : ClassesRegistered aether app links history.node.classId) :
    freezeNetworkSharedNodeState aether app history.node =
      .ok ⟨serializeObjectGraph aether (buildNetworkSharedScratch aether app history.node),
        sharedIdentities history.node.journal⟩ := by
  have hload := loadSharedNode_buildNetworkSharedScratch hlawful h hclasses
  simp only [freezeNetworkSharedNodeState, hload, bind, Except.bind, pure, Except.pure]
  rfl

/-- The frame is read back when its payload fits. -/
theorem isReadable_frozenFrame (aether : Aether α ε) (h : SenderInvariant app links history)
    (hpeer : peer ∈ history.node.fields.shares) {packetId : ObjId}
    (hpacket : packetId.isValid = true) :
    (frozenFrame aether app history.node packetId peer.shareId).isReadable = true ↔
      (serializeObjectGraph aether (buildNetworkSharedScratch aether app history.node)).length <
        2 ^ 32 := by
  simp only [NodeStateFrame.isReadable, Bool.and_eq_true, decide_eq_true_eq]
  exact ⟨fun hread => hread.2, fun hfits =>
    ⟨⟨⟨hpacket, h.names.root.1⟩, h.shareIds peer hpeer⟩, hfits⟩⟩

/-- The checks before the scratch Domain let the packet of an honest sender through. -/
theorem validateSnapshot_honest (hlawful : aether.Lawful) (hchains : aether.SavesChains)
    (h : SenderInvariant app links history)
    (hclasses : ClassesRegistered aether app links history.node.classId)
    (hready : ReadyFor aether app env replica senderEndpoint receiverEndpoint history.node)
    (packetId shareId : ObjId) :
    validateSnapshot aether app env replica senderEndpoint
        (frozenFrame aether app history.node packetId shareId) =
      validateInScratch aether app env.scratch.ids
        (buildNetworkSharedScratch aether app history.node) receiverEndpoint senderEndpoint
        (frozenFrame aether app history.node packetId shareId) := by
  have hstorable := isStorable_of_reachable h hclasses
  obtain ⟨expected, hexpected, hclass⟩ := hready.expected
  obtain ⟨chains, hvalidate⟩ := exists_chains hchains hstorable
  have hroot := rootClassIsExpected_savedObjects hchains
    (objectsAgree_of_namesObjects h.names h.topology) List.mem_cons_self
    (hstorable _ List.mem_cons_self) hclasses.sharedNode hclass hvalidate
  have hparsed : deserializeObjectGraph aether
      (serializeObjectGraph aether (buildNetworkSharedScratch aether app history.node)) =
      some (buildNetworkSharedScratch aether app history.node) := by
    have hstate := hlawful.loadState_saveState
      (buildNetworkSharedScratch aether app history.node) []
    rw [List.append_nil] at hstate
    rw [deserializeObjectGraph, serializeObjectGraph, hstate]
    rfl
  have hchainsHere : validateStoredClassChains aether
      (buildNetworkSharedScratch aether app history.node) = some chains := hvalidate
  simp only [validateSnapshot, frozenFrame, hexpected, hparsed, hchainsHere, hroot,
    hready.endpoint, Bool.not_true, Bool.false_eq_true, if_false]

/-- What `ImportValidatedNode` does with the packet of an honest sender. -/
theorem importValidatedNode_honest (hlawful : aether.Lawful) (hchains : aether.SavesChains)
    (h : SenderInvariant app links history)
    (hclasses : ClassesRegistered aether app links history.node.classId)
    (hshares : OneShareEach history.node.fields.shares senderEndpoint receiverEndpoint own peer)
    (hready : ReadyFor aether app env replica senderEndpoint receiverEndpoint history.node)
    (packetId : ObjId) :
    (IsFolded history.node own.shareId →
      (importValidatedNode aether app env replica senderEndpoint
        (frozenFrame aether app history.node packetId peer.shareId)).result = .ok none) ∧
    (¬ IsFolded history.node own.shareId →
      ∃ imported, (importValidatedNode aether app env replica senderEndpoint
          (frozenFrame aether app history.node packetId peer.shareId)).result =
          .ok (some imported) ∧ IsFaithfulCopy history.node imported.node) := by
  obtain ⟨created, hcreated, hfolded, hunfolded⟩ := validateInScratch_networkView h hclasses
    hshares hready.scratchValid (loadSharedNode_buildNetworkSharedScratch hlawful h hclasses)
    packetId (serializeObjectGraph aether (buildNetworkSharedScratch aether app history.node))
  have hvalidate := validateSnapshot_honest hlawful hchains h hclasses hready packetId
    peer.shareId
  constructor
  · intro hin
    have hrefused := hvalidate.trans (hfolded hin)
    rw [importValidatedNode, hrefused, pureStep_ok_bind]
    rfl
  · intro hout
    have haccepted := hvalidate.trans (hunfolded hout)
    obtain ⟨node, hnode, hcopy⟩ :=
      loadAdmittedNode_isFaithfulCopy hlawful h hclasses hready hcreated
    refine ⟨⟨node, own.shareId⟩, ?_, hcopy⟩
    have hstored : (storeCreated aether node.fields.created :
        RuntimeM α ε Unit).result = .ok () := rfl
    have htarget : (frozenFrame aether app history.node packetId peer.shareId).targetNodeId =
        history.node.objId := rfl
    rw [importValidatedNode, haccepted, pureStep_ok_bind]
    simp only [collidesWithReceiver_of_ready hready hcreated, Bool.false_eq_true, if_false,
      perform_bind, htarget, hnode, pureStep_ok_bind]
    rw [EffectLog.bind_of_ok _ hstored]
    rfl

end Production

/-- In every state that a sender reaches, the packet that `SyncInitialState` freezes for the
receiver is admitted exactly when its payload fits the frame and the Event that opened the
sender's own relationship is not folded into the base; what is admitted is a faithful
copy. -/
theorem honestSnapshot_isImported_iff {aether : Aether α ε} {app : AppClass α ε}
    (hlawful : aether.Lawful) (hchains : aether.SavesChains) {links : ObjId → Option Link}
    {start : SharedNode α ε} (hstart : IsNewNode app start)
    (hroot : start.objId.isValid = true ∧ links start.objId = none)
    (hbase : links start.base.id = none) {actions : List (NodeAction ε)}
    {reached : TopologyHistory α ε}
    (hallowed : EveryStep (topologyStep app) (SenderAllowed links) ⟨start, [], []⟩ actions)
    (hrun : runActions (topologyStep app) ⟨start, [], []⟩ actions = some reached)
    (hclasses : ClassesRegistered aether app links reached.node.classId)
    {senderEndpoint receiverEndpoint : Bytes} {own peer : Share}
    (hshares : OneShareEach reached.node.fields.shares senderEndpoint receiverEndpoint own peer)
    {env : StepEnv} {replica : Replica α ε}
    (hready : ReadyFor aether app env replica senderEndpoint receiverEndpoint reached.node)
    {packetId : ObjId} (hpacket : packetId.isValid = true) :
    ∃ frozen, freezeNetworkSharedNodeState aether app reached.node = .ok frozen ∧
      ((∃ frame imported,
          decodeNodeStateFrame
              (initialPacket packetId reached.node.objId peer.shareId frozen) = some frame ∧
            (importValidatedNode aether app env replica senderEndpoint frame).result =
              .ok (some imported)) ↔
        frozen.payload.length < 2 ^ 32 ∧ ¬ IsFolded reached.node own.shareId) ∧
      ∀ frame imported,
        decodeNodeStateFrame
            (initialPacket packetId reached.node.objId peer.shareId frozen) = some frame →
          (importValidatedNode aether app env replica senderEndpoint frame).result =
            .ok (some imported) →
          IsFaithfulCopy reached.node imported.node := by
  have h := senderInvariant_run hstart hroot hbase hallowed hrun
  obtain ⟨hfolded, hunfolded⟩ :=
    importValidatedNode_honest hlawful hchains h hclasses hshares hready packetId
  refine ⟨_, freezeNetworkSharedNodeState_honest hlawful h hclasses, ?_⟩
  -- What is decoded of the packet is the frozen frame.
  have hdecode := decodeNodeStateFrame_encode
    (frozenFrame aether app reached.node packetId peer.shareId)
  have hreadable := isReadable_frozenFrame aether h hshares.peer.1 hpacket
  change ((∃ frame imported, decodeNodeStateFrame (encodeNodeStateFrame
      (frozenFrame aether app reached.node packetId peer.shareId)) = some frame ∧ _) ↔ _) ∧
    ∀ frame imported, decodeNodeStateFrame (encodeNodeStateFrame
      (frozenFrame aether app reached.node packetId peer.shareId)) = some frame → _
  rw [hdecode]
  by_cases hfits : (serializeObjectGraph aether
      (buildNetworkSharedScratch aether app reached.node)).length < 2 ^ 32
  · rw [if_pos (hreadable.mpr hfits)]
    by_cases hin : IsFolded reached.node own.shareId
    · have hrefused := hfolded hin
      constructor
      · refine iff_of_false ?_ fun hcondition => hcondition.2 hin
        rintro ⟨frame, imported, hframe, himport⟩
        cases hframe
        cases hrefused.symm.trans himport
      · intro frame imported hframe himport
        cases hframe
        cases hrefused.symm.trans himport
    · obtain ⟨imported, himport, hcopy⟩ := hunfolded hin
      refine ⟨iff_of_true ⟨_, imported, rfl, himport⟩ ⟨hfits, hin⟩, ?_⟩
      intro frame other hframe hother
      cases hframe
      cases himport.symm.trans hother
      exact hcopy
  · rw [if_neg fun hread => hfits (hreadable.mp hread)]
    refine ⟨iff_of_false ?_ fun hcondition => hfits hcondition.1, nofun⟩
    rintro ⟨frame, imported, hframe, -⟩
    cases hframe

section ChatReplicas

theorem chatAether_savesChains : chatAether.SavesChains := by
  intro id object hvalid hclass
  have hchain : ∀ classId, chatAether.hasFactory classId = true →
      (validateStoredClassChain chatAether ⟨1⟩ ((chatTree.chain classId).map fun other =>
        (other, [(0, [])]))).map StoredClassChainInfo.mostDerivedClassId = some classId := by
    intro classId hfactory
    have hmem := of_decide_eq_true hfactory
    simp only [List.mem_cons, List.not_mem_nil, or_false] at hmem
    rcases hmem with rfl | rfl | rfl | rfl | rfl | rfl | rfl | rfl | rfl | rfl <;> decide
  obtain ⟨info, hinfo, hderived⟩ := Option.map_eq_some_iff.mp (hchain object.classId hclass)
  refine ⟨{ info with objId := id }, ?_, hderived⟩
  have hlayers := validateStoredClassChain_map chatAether hvalid
    (show (⟨1⟩ : ObjId).isValid = true from rfl) (chatTree.chain object.classId) fun classId => if classId = object.classId then
      (storedObjectCodec messageCodec.list messageAddedEventCodec).encode object else []
  rw [hinfo] at hlayers
  exact hlayers

/-- The Links of the host of a ChatRoom. -/
def hostLinks (id : ObjId) : Option Link :=
  if id = ⟨12⟩ then some ⟨memoryLinkClassId, hostEndpoint, 0⟩
  else if id = ⟨13⟩ then some ⟨memoryLinkClassId, clientEndpoint, 0⟩
  else none

/-- A message of the host. -/
def hostedMessage : MessageAddedEvent := ⟨⟨⟨hostEndpoint, 1⟩, 30, [65]⟩⟩

/-- The host shares a ChatRoom with itself and with a client, and writes a message. -/
def hostedRoom : List (NodeAction MessageAddedEvent) :=
  [.operate (idsFrom 1000) 10
      (.addShare ⟨⟨12⟩, hostLinks ⟨12⟩⟩ ShareAccess.readWrite ⟨14⟩),
    .operate (idsFrom 1000) 20
      (.addShare ⟨⟨13⟩, hostLinks ⟨13⟩⟩ ShareAccess.readWrite ⟨15⟩),
    .operate (idsFrom 1000) 40
      (.commitShared ⟨⟨16⟩, some (.app hostedMessage)⟩ ⟨hostEndpoint, 1⟩ ⟨30⟩)]

/-- The same, with all but the message compacted into the base. -/
def compactedRoom : List (NodeAction MessageAddedEvent) :=
  hostedRoom ++
    [.operate (idsFrom 1000) 50 (.setJournalRetentionPolicy ⟨1, none⟩),
      .operate (idsFrom 1000) 60 .compactJournal]

/-- The ids of a step are new. -/
def DrawsFresh (history : TopologyHistory Messages MessageAddedEvent)
    (action : NodeAction MessageAddedEvent) : Prop :=
  (∀ id ∈ action.topologyEventId, id.isValid = true ∧ id ∉ history.drawn) ∧
    ∀ id ∈ action.eventId, (hostLinks id = none ∧ id ≠ history.node.objId ∧
      id ≠ history.node.base.id) ∧ id ∉ history.node.journal.map fun record => record.event.id

instance (history : TopologyHistory Messages MessageAddedEvent)
    (action : NodeAction MessageAddedEvent) : Decidable (DrawsFresh history action) :=
  inferInstanceAs (Decidable (_ ∧ _))

theorem compactedRoom_allowed {actions : List (NodeAction MessageAddedEvent)}
    (hactions : ∀ action ∈ actions, action ∈ compactedRoom)
    (hfresh : EveryStep (topologyStep chatRoom) DrawsFresh ⟨emptyRoom, [], []⟩ actions) :
    EveryStep (topologyStep chatRoom) (SenderAllowed hostLinks) ⟨emptyRoom, [], []⟩
      actions := by
  have hids : ∀ n, (idsFrom 1000 n).isValid = true :=
    forall_idsFrom (fun id => id.isValid = true) 1000 (by decide)
  have hsound : ∀ action ∈ compactedRoom, (∀ ids nowUs operation,
        action = .operate ids nowUs operation →
          operation.KeepsTopologyCommands ∧ ∀ n, (ids n).isValid = true) ∧
      ∀ ids nowUs link access eventId,
        action = .operate ids nowUs (.addShare link access eventId) →
          link.IsLinkOf hostLinks := by
    intro action haction
    simp only [compactedRoom, hostedRoom, List.mem_append, List.mem_cons, List.not_mem_nil,
      or_false] at haction
    rcases haction with (rfl | rfl | rfl) | rfl | rfl
    · exact ⟨fun _ _ _ h => by cases h; exact ⟨trivial, hids⟩,
        fun _ _ _ _ _ h => by cases h; exact ⟨⟨rfl, rfl⟩, rfl⟩⟩
    · exact ⟨fun _ _ _ h => by cases h; exact ⟨trivial, hids⟩,
        fun _ _ _ _ _ h => by cases h; exact ⟨⟨rfl, rfl⟩, rfl⟩⟩
    · exact ⟨fun _ _ _ h => by cases h; exact ⟨⟨_, rfl⟩, hids⟩, nofun⟩
    · exact ⟨fun _ _ _ h => by cases h; exact ⟨trivial, hids⟩, nofun⟩
    · exact ⟨fun _ _ _ h => by cases h; exact ⟨trivial, hids⟩, nofun⟩
  refine (everyStep_congr (fun _ => True) (fun _ _ _ _ _ => trivial) ?_ trivial).mp hfresh
  intro history action _ haction
  obtain ⟨hoperates, hlink⟩ := hsound action (hactions action haction)
  constructor
  · rintro ⟨htopology, hevent⟩
    refine ⟨⟨fun ids nowUs operation h => (hoperates ids nowUs operation h).1,
      fun ids nowUs operation h => (hoperates ids nowUs operation h).2, htopology⟩, ?_, hlink⟩
    intro id hid
    obtain ⟨⟨hnoLink, hroot, hbase⟩, hnew⟩ := hevent id hid
    exact ⟨⟨hnoLink, hroot, hbase⟩, hnew⟩
  · intro h
    refine ⟨h.topology.fresh, fun id hid => ?_⟩
    obtain ⟨hnamed, hnew⟩ := h.eventId id hid
    exact ⟨⟨hnamed.link, hnamed.root, hnamed.base⟩, hnew⟩

/-- The open Shares of the hosted room. -/
def hostShare : Share := ⟨⟨14⟩, ⟨⟨12⟩, hostLinks ⟨12⟩⟩, ShareAccess.readWrite⟩

@[inherit_doc hostShare]
def clientShare : Share := ⟨⟨15⟩, ⟨⟨13⟩, hostLinks ⟨13⟩⟩, ShareAccess.readWrite⟩

/-- The room is one that the host may send to the client. -/
def IsSendable (node : SharedNode Messages MessageAddedEvent) : Prop :=
  node.classId = chatRoomClassId ∧ node.fields.shares = [hostShare, clientShare] ∧
    ∀ entry ∈ reachableObjects chatAether chatRoom .networkShared node, entry.1.id < 1000

instance (node : SharedNode Messages MessageAddedEvent) : Decidable (IsSendable node) :=
  inferInstanceAs (Decidable (_ ∧ _))

theorem chatRoom_classesRegistered :
    ClassesRegistered chatAether chatRoom hostLinks chatRoomClassId where
  root := by decide
  node := by decide
  sharedNode := by decide
  links id link hlink := by
    unfold hostLinks at hlink
    split at hlink
    case isTrue =>
      cases hlink
      decide
    case isFalse =>
      split at hlink
      case isTrue =>
        cases hlink
        decide
      case isFalse => cases hlink
  events event := by cases event <;> rfl
  targets event := by
    show chatAether.derives chatRoomClassId chatRoomClassId = true
    decide

theorem IsSendable.oneShareEach {node : SharedNode Messages MessageAddedEvent}
    (h : IsSendable node) :
    OneShareEach node.fields.shares hostEndpoint clientEndpoint hostShare clientShare := by
  rw [h.2.1]
  refine ⟨?_, by decide, ⟨List.mem_cons_self, rfl⟩,
    ⟨List.mem_cons_of_mem _ List.mem_cons_self, rfl⟩, by decide⟩
  intro share hshare
  simp only [List.mem_cons, List.not_mem_nil, or_false] at hshare
  rcases hshare with rfl | rfl
  · exact ⟨hostEndpoint, rfl, by decide⟩
  · exact ⟨clientEndpoint, rfl, by decide⟩

theorem IsSendable.readyFor {node : SharedNode Messages MessageAddedEvent}
    (h : IsSendable node) :
    ReadyFor chatAether chatRoom (receiverEnv true) waitingClient hostEndpoint clientEndpoint
      node where
  endpoint := rfl
  expected := ⟨some chatRoomClassId, rfl, fun classId hclass => by
    rw [h.1]
    exact (Option.some.inj hclass).symm⟩
  unoccupied _ _ := rfl
  scratchValid := forall_idsFrom (fun id => id.isValid = true) 4000 (by decide)
  scratchFresh _ := rfl
  scratchApart n entry hentry hid := by
    have hlt := h.2.2 entry hentry
    rw [hid] at hlt
    exact forall_idsFrom (fun id => ¬ id.id < 1000) 4000 (by decide) n hlt
  ids := forall_idsFrom (fun id => id.isValid = true) 1000 (by decide)

instance (node : SharedNode Messages MessageAddedEvent) (shareId : ObjId) :
    Decidable (IsFolded node shareId) :=
  match h : node.base.obj with
  | none => .isFalse fun ⟨_, hbase, _⟩ => by cases h.symm.trans hbase
  | some snapshot => decidable_of_iff (shareId ∈ snapshot.shares.map Share.shareId)
      ⟨fun hmem => ⟨snapshot, h, hmem⟩, fun ⟨_, hbase, hmem⟩ => by
        cases h.symm.trans hbase
        exact hmem⟩

theorem compactedRoom_run : ∃ reached,
    runActions (topologyStep chatRoom) ⟨emptyRoom, [], []⟩ compactedRoom = some reached ∧
      IsSendable reached.node ∧ IsFolded reached.node ⟨14⟩ ∧
      (serializeObjectGraph chatAether
        (buildNetworkSharedScratch chatAether chatRoom reached.node)).length < 2 ^ 32 := by
  have hrun : (runActions (topologyStep chatRoom) ⟨emptyRoom, [], []⟩ compactedRoom).any
      (fun reached => decide (IsSendable reached.node ∧ IsFolded reached.node ⟨14⟩ ∧
        (serializeObjectGraph chatAether
          (buildNetworkSharedScratch chatAether chatRoom reached.node)).length < 2 ^ 32)) =
      true := by decide +kernel
  obtain ⟨reached, hreached, hfacts⟩ := (Option.any_eq_true _ _).mp hrun
  exact ⟨reached, hreached, of_decide_eq_true hfacts⟩

/-- The room of the host is a room that may be sent, and its packet is refused. -/
theorem compactedRoom_isRefused : ∃ reached,
    runActions (topologyStep chatRoom) ⟨emptyRoom, [], []⟩ compactedRoom = some reached ∧
      EveryStep (topologyStep chatRoom) (SenderAllowed hostLinks) ⟨emptyRoom, [], []⟩
        compactedRoom ∧
      OneShareEach reached.node.fields.shares hostEndpoint clientEndpoint hostShare
        clientShare ∧
      ReadyFor chatAether chatRoom (receiverEnv true) waitingClient hostEndpoint
        clientEndpoint reached.node ∧
      ∃ frozen, freezeNetworkSharedNodeState chatAether chatRoom reached.node = .ok frozen ∧
        ∃ frame, decodeNodeStateFrame
            (initialPacket ⟨900⟩ reached.node.objId clientShare.shareId frozen) = some frame ∧
          (importValidatedNode chatAether chatRoom (receiverEnv true) waitingClient
            hostEndpoint frame).result = .ok none := by
  obtain ⟨reached, hrun, hsendable, hfolded, hfits⟩ := compactedRoom_run
  have hallowed : EveryStep (topologyStep chatRoom) (SenderAllowed hostLinks)
      ⟨emptyRoom, [], []⟩ compactedRoom :=
    compactedRoom_allowed (fun _ h => h) (by decide)
  have h := senderInvariant_run ⟨_, _, _, _, _, by decide, by decide, rfl, rfl, rfl⟩
    ⟨by decide, by decide⟩ (by decide) hallowed hrun
  have hclasses : ClassesRegistered chatAether chatRoom hostLinks reached.node.classId :=
    hsendable.1 ▸ chatRoom_classesRegistered
  have hshares := hsendable.oneShareEach
  have hread := (isReadable_frozenFrame chatAether h hshares.peer.1
    (show (⟨900⟩ : ObjId).isValid = true from rfl)).mpr hfits
  refine ⟨reached, hrun, hallowed, hshares, hsendable.readyFor, _,
    freezeNetworkSharedNodeState_honest chatAether_lawful h hclasses,
    frozenFrame chatAether chatRoom reached.node ⟨900⟩ clientShare.shareId, ?_, ?_⟩
  · rw [initialPacket, ← frozenFrame, decodeNodeStateFrame_encode, if_pos hread]
  · exact (importValidatedNode_honest chatAether_lawful chatAether_savesChains h hclasses
      hshares hsendable.readyFor ⟨900⟩).1 hfolded

theorem hostedRoom_run : ∃ reached,
    runActions (topologyStep chatRoom) ⟨emptyRoom, [], []⟩ hostedRoom = some reached ∧
      IsSendable reached.node ∧ ¬ IsFolded reached.node ⟨14⟩ ∧
      reached.node.journal.length = 3 := by
  have hrun : (runActions (topologyStep chatRoom) ⟨emptyRoom, [], []⟩ hostedRoom).any
      (fun reached => decide (IsSendable reached.node ∧ ¬ IsFolded reached.node ⟨14⟩ ∧
        reached.node.journal.length = 3)) = true := by decide
  obtain ⟨reached, hreached, hfacts⟩ := (Option.any_eq_true _ _).mp hrun
  exact ⟨reached, hreached, of_decide_eq_true hfacts⟩

/-- The room before the compaction, over the equivalence. -/
theorem honestSnapshot_isImported_hostedRoom : ∃ reached,
    runActions (topologyStep chatRoom) ⟨emptyRoom, [], []⟩ hostedRoom = some reached ∧
      ¬ IsFolded reached.node ⟨14⟩ ∧
      ∃ frozen, freezeNetworkSharedNodeState chatAether chatRoom reached.node = .ok frozen ∧
        ((∃ frame imported,
            decodeNodeStateFrame
                (initialPacket ⟨900⟩ reached.node.objId clientShare.shareId frozen) =
              some frame ∧
              (importValidatedNode chatAether chatRoom (receiverEnv true) waitingClient
                hostEndpoint frame).result = .ok (some imported)) ↔
          frozen.payload.length < 2 ^ 32 ∧ ¬ IsFolded reached.node hostShare.shareId) ∧
        ∀ frame imported,
          decodeNodeStateFrame
              (initialPacket ⟨900⟩ reached.node.objId clientShare.shareId frozen) =
            some frame →
            (importValidatedNode chatAether chatRoom (receiverEnv true) waitingClient
              hostEndpoint frame).result = .ok (some imported) →
            IsFaithfulCopy reached.node imported.node := by
  obtain ⟨reached, hrun, hsendable, hunfolded, -⟩ := hostedRoom_run
  have hallowed : EveryStep (topologyStep chatRoom) (SenderAllowed hostLinks)
      ⟨emptyRoom, [], []⟩ hostedRoom :=
    compactedRoom_allowed (fun _ h => List.mem_append_left _ h) (by decide)
  exact ⟨reached, hrun, hunfolded, honestSnapshot_isImported_iff chatAether_lawful
    chatAether_savesChains ⟨_, _, _, _, _, by decide, by decide, rfl, rfl, rfl⟩
    ⟨by decide, by decide⟩ (by decide) hallowed hrun
    (hsendable.1 ▸ chatRoom_classesRegistered) hsendable.oneShareEach hsendable.readyFor
    (by decide)⟩

end ChatReplicas

end AppTraverse
