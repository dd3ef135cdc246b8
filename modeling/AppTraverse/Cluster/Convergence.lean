import AppTraverse.Cluster.StatedContents
import AppTraverse.Cluster.TwoReplicas

/-!
# Two replicas agree on what Events are

`TwoReplicas` speaks of identities.  Here the Events themselves follow: what anyone
states under an identity, in a journal or in a packet, is what its author committed.
A shared commit cannot contradict it, because an identity of this replica that anyone
states is in its registered journal, where the commit would have found it.

So an identity names one Event at every moment of every run, and two replicas that
have nothing left to send have the same Events, with the same timestamps.
-/

namespace AppTraverse

open Foundations

variable {α ε : Type} {aether : Aether α ε} {app : AppClass α ε}

section Saved

variable {history next : PacketHistory α ε} {peer : ReplicaView}

/-- What is saved is registered, too. -/
def SavedIsHeld (replica : Replica α ε) : Prop :=
  ∀ saved ∈ replica.storage.nodes, ∀ identity ∈ sharedIdentities saved.journal,
    replica.Holds saved.objId identity

/-- The effect saves nothing but what is held. -/
def Effect.SavesHeld (replica : Replica α ε) : Effect α ε → Prop
  | .saveNode node => ∀ identity ∈ sharedIdentities node.journal,
      replica.Holds node.objId identity
  | _ => True

theorem savedIsHeld_of_perform {replica : Replica α ε} {effects : List (Effect α ε)}
    {storage : ReplicaStorage α ε}
    (h : ∀ saved ∈ storage.nodes, ∀ identity ∈ sharedIdentities saved.journal,
      replica.Holds saved.objId identity)
    (heffects : ∀ effect ∈ effects, effect.SavesHeld replica) :
    ∀ saved ∈ (effects.foldl ReplicaStorage.perform storage).nodes,
      ∀ identity ∈ sharedIdentities saved.journal, replica.Holds saved.objId identity := by
  induction effects generalizing storage with
  | nil => exact h
  | cons effect rest ih =>
      rw [List.forall_mem_cons] at heffects
      refine ih ?_ heffects.2
      cases effect with
      | commitObjectGraph graph => exact h
      | storeObject id layers => exact h
      | saveNode node =>
          exact forall_saveNodeValue (P := fun saved : SharedNode α ε =>
            ∀ identity ∈ sharedIdentities saved.journal, replica.Holds saved.objId identity)
            h heffects.1
      | saveLinkSyncState nodeId entry =>
          intro node hnode
          obtain ⟨before, hbefore, rfl⟩ := List.mem_map.mp hnode
          have hheld := h before hbefore
          split
          case isTrue => exact hheld
          case isFalse => exact hheld
      | bindNode endpoint node bound => exact h
      | send destination bytes => exact h

/-- A packet is begun on a Node that is registered as it is saved. -/
theorem savesHeld_of_packetBegun {runtime' : SharedSyncRuntime α ε} {nodeId shareId : ObjId}
    {node : SharedNode α ε} {destination : Bytes} {index : Nat} {state : LinkSyncState}
    {eventId : ObjId} {event : LinkSyncEvent} {packet : Bytes} {effects : List (Effect α ε)}
    (hafter : IsAfterCall history next effects runtime')
    (hdestination : IsSyncDestination history.replica.runtime nodeId shareId node destination
      index state)
    (hbegun : PacketBegun history.replica.runtime node index destination eventId event packet
      effects runtime') :
    ∀ effect ∈ effects, effect.SavesHeld next.replica := by
  obtain ⟨committed, hcommit, heffects, hruntime⟩ := hbegun.outcome
  have hsame := sameShared_of_commitLinkSyncEvent hcommit
  have hid := objId_of_findNode hdestination.found
  intro effect hmem
  rw [heffects] at hmem
  rcases List.mem_pair.mp hmem with rfl | rfl
  · intro identity hidentity
    rw [hsame.objId, hid]
    exact holds_of_committed hdestination.found hsame.objId (by rw [hafter.runtime, hruntime])
      (by rw [hafter.storage, heffects]; rfl) hidentity
  · trivial

/-- Whatever a step saves is held after it. -/
theorem savesHeld_of_step {action : ReplicaAction ε} {runtime' : SharedSyncRuntime α ε}
    (hhonest : ActsHonestly aether history peer action)
    (hdraws : DrawsNewIds aether history action)
    (hresult : (action.outcome aether app history.replica).result = .ok runtime')
    (hafter : IsAfterCall history next (action.outcome aether app history.replica).effects
      runtime') :
    ∀ effect ∈ (action.outcome aether app history.replica).effects,
      effect.SavesHeld next.replica := by
  cases action with
  | receive env sourceEndpoint bytes =>
      simp only [ReplicaAction.outcome] at hresult hafter ⊢
      unfold onBytes at hresult hafter ⊢
      split at hresult
      case h_1 => simp
      case h_2 hpeek =>
        split at hresult
        case h_1 => simp
        case h_2 frame hdecode =>
          simp only [hpeek, hdecode] at hafter ⊢
          have hpacket := (hhonest.packet _ (packetKeyOf_of_decodeNodeStateFrame hdecode)).2
          rcases onNodeState_cases hpacket.cuts hdecode (hdraws.2.2 frame hdecode) hpacket.valid
              hresult with ⟨hnil, rfl⟩ | ⟨node, -, -, heffects, -⟩ |
            ⟨imported, completed, noted, entry, hregistered⟩
          · simp [hnil]
          · rw [heffects]
            intro effect hmem
            rcases answers_of_bindAndAcknowledge hmem with ⟨bound, rfl⟩ | rfl
            · trivial
            · trivial
          · obtain ⟨hid, -, hlive, hstored⟩ := hregistered.noted_spec
            intro effect hmem
            rcases hregistered.effects_spec.1 effect hmem with hnothing | rfl | rfl
            · cases effect with
              | saveNode node => exact hnothing.elim
              | _ => trivial
            · trivial
            · intro identity hidentity
              rw [hid]
              rw [← hafter.runtime] at hlive
              rw [← hafter.storage] at hstored
              exact holds_of_saved hlive hstored rfl rfl hidentity
      case h_3 hpeek =>
        split at hresult
        case h_1 => simp
        case h_2 frame hdecode =>
          simp only [hpeek, hdecode] at hafter ⊢
          rcases onAck_cases hresult with ⟨-, heffects, rfl⟩ |
            ⟨node, index, state, committed, hawaited, hcommit, heffects, rfl⟩
          · simp [heffects]
          · have hsame := sameShared_of_commitLinkSyncEvent hcommit
            rw [heffects]
            intro effect hmem
            rw [List.mem_singleton.mp hmem]
            intro identity hidentity
            rw [hsame.objId, objId_of_findNode hawaited.found]
            exact holds_of_committed hawaited.found hsame.objId (by rw [hafter.runtime])
              (by rw [hafter.storage, heffects]; rfl) hidentity
      case h_4 hpeek =>
        split at hresult
        case h_1 => simp
        case h_2 frame hdecode =>
          simp only [hpeek, hdecode] at hafter ⊢
          rcases onEvent_cases hresult with ⟨heffects, rfl⟩ |
            ⟨node, parsed, wireRootId, existing, -, -, -, heffects, rfl⟩ |
            ⟨node, parsed, wireRootId, localEvent, inserted, hadmissible, hinserted, heffects,
              rfl⟩
          · simp [heffects]
          · simp [heffects, ackEffect, Effect.SavesHeld]
          · obtain ⟨-, -, hrecord⟩ := recordInserted_of_commitShared hinserted.commit
            rw [heffects]
            intro effect hmem
            simp only [List.mem_cons, List.not_mem_nil, or_false] at hmem
            rcases hmem with rfl | rfl | rfl
            · trivial
            · intro identity hidentity
              rw [hrecord.objId, objId_of_findNode hadmissible.found]
              exact holds_of_committed hadmissible.found hrecord.objId (by rw [hafter.runtime])
                (by rw [hafter.storage, heffects]; rfl) hidentity
            · trivial
  | syncInitialState env nodeId shareId =>
      simp only [ReplicaAction.outcome] at hresult hafter ⊢
      obtain ⟨node, destination, index, state, hdestination, ⟨-, heffects, -⟩ |
        ⟨-, heffects, -⟩ | ⟨frozen, -, -, hbegun⟩⟩ := syncInitialState_cases hresult
      · simp [heffects]
      · simp [heffects, Effect.SavesHeld]
      · exact savesHeld_of_packetBegun hafter hdestination hbegun
  | syncNextEvent env nodeId shareId =>
      simp only [ReplicaAction.outcome] at hresult hafter ⊢
      obtain ⟨node, destination, index, state, hdestination, ⟨heffects, -⟩ |
        ⟨-, -, heffects, -⟩ | ⟨record, event, payload, -, -, -, hbegun⟩⟩ :=
        syncNextEvent_cases hresult
      · simp [heffects]
      · simp [heffects, Effect.SavesHeld]
      · exact savesHeld_of_packetBegun hafter hdestination hbegun
  | operate ids nowUs nodeId operation =>
      simp only [ReplicaAction.outcome] at hresult ⊢
      split at hresult
      case h_1 => cases hresult
      case h_2 node hfound =>
        cases hrun : operation.run app ids nowUs node with
        | error reason => simp [hrun] at hresult
        | ok changed => simp
  | saveNode nodeId =>
      simp only [ReplicaAction.outcome] at hresult hafter ⊢
      split at hresult
      case h_1 => cases hresult
      case h_2 node hfound =>
        simp only [hfound, perform_bind, EffectLog.pure_result, EffectLog.pure_effects,
          Except.ok.injEq] at hresult hafter ⊢
        intro effect hmem
        rw [List.mem_singleton.mp hmem]
        intro identity hidentity
        have hid := objId_of_findNode hfound
        have hlive : findNode next.replica.runtime.nodes nodeId = some node := by
          rw [hafter.runtime, ← hresult]
          exact hfound
        have hsaved : findNode next.replica.storage.nodes nodeId = some node := by
          rw [hafter.storage, ← hid]
          exact findNode_saveNodeValue _ node
        rw [hid]
        exact holds_of_saved hlive hsaved rfl rfl hidentity
  | restart => simp [ReplicaAction.outcome]

theorem savedIsHeld_step {action : ReplicaAction ε} (h : SavedIsHeld history.replica)
    (hhonest : ActsHonestly aether history peer action)
    (hdraws : DrawsNewIds aether history action)
    (hstep : packetStep aether app history action = some next) : SavedIsHeld next.replica := by
  have hgrows := grows_of_step hhonest hstep
  obtain ⟨runtime', hresult, hnext⟩ := packetStep_eq_some_iff.mp hstep
  have hafter : IsAfterCall history next (action.outcome aether app history.replica).effects
      runtime' := by
    rw [hnext]
    exact ⟨rfl, rfl⟩
  unfold SavedIsHeld
  rw [hafter.storage]
  exact savedIsHeld_of_perform
    (fun saved hsaved identity hidentity => hgrows.holds _ _ (h saved hsaved identity hidentity))
    (savesHeld_of_step hhonest hdraws hresult hafter)

end Saved

section Invariant

variable {cluster next : Cluster α ε} {side : Side}

/-- What either side states. -/
def Cluster.States (aether : Aether α ε) (cluster : Cluster α ε) : ContentSet ε :=
  fun nodeId content => ∃ side, (cluster.replicas side).States aether nodeId content

/-- An identity names one Event at both sides and in every packet, its object is there, and
what is saved is registered. -/
structure EventsAgree (aether : Aether α ε) (cluster : Cluster α ε) : Prop where
  agree : ∀ nodeId content content', cluster.States aether nodeId content →
    cluster.States aether nodeId content' → content.identity = content'.identity →
    content = content'
  resolved : ∀ side, ∀ node ∈ (cluster.replicas side).replica.runtime.nodes ++
    (cluster.replicas side).replica.storage.nodes, EventsAreResolved node
  held : ∀ side, SavedIsHeld (cluster.replicas side).replica

/-- An action freezes graphs only in which one id names one object. -/
def ClusterFreezes (aether : Aether α ε) (app : AppClass α ε) (cluster : Cluster α ε) :
    ClusterAction ε → Prop
  | .act side action =>
      FreezesOneObjectEach aether app (cluster.replicas side).replica action
  | _ => True

/-- Each side says what the two sides say. -/
theorem EventsAgree.covered (h : EventsAgree aether cluster) (side : Side) :
    HistoryIsCovered aether (cluster.States aether) (cluster.replicas side) where
  nodes := fun node hnode => ⟨h.resolved side node hnode, fun _ hcontent =>
    ⟨side, Or.inl ⟨node, hnode, rfl, hcontent⟩⟩⟩
  packets := fun packet hpacket _ hcontent =>
    ⟨side, Or.inr ⟨packet, hpacket, rfl, hcontent⟩⟩

theorem HistoryIsCovered.mono {history : PacketHistory α ε} {stated stated' : ContentSet ε}
    (h : HistoryIsCovered aether stated history)
    (hmore : ∀ nodeId content, stated nodeId content → stated' nodeId content) :
    HistoryIsCovered aether stated' history where
  nodes := fun node hnode => ⟨(h.nodes node hnode).resolved, fun content hcontent =>
    hmore _ _ ((h.nodes node hnode).contents content hcontent)⟩
  packets := fun packet hpacket content hcontent =>
    hmore _ _ (h.packets packet hpacket content hcontent)

/-- An identity of this side that anyone states is in the registered journal of this
side. -/
theorem exists_live_of_states (h : ClusterInvariant aether cluster)
    (hheld : SavedIsHeld (cluster.replicas side).replica) {nodeId : ObjId}
    {content : SharedContent ε} (hstates : cluster.States aether nodeId content)
    (horigin : content.identity.originUid = cluster.endpoint side) :
    ∃ live, findNode (cluster.replicas side).replica.runtime.nodes nodeId = some live ∧
      content.identity ∈ sharedIdentities live.journal := by
  obtain ⟨author, hauthor⟩ := hstates
  rcases Side.eq_or_other side author with rfl | rfl
  · rcases hauthor with ⟨node, hnode, rfl, hcontent⟩ | ⟨packet, hpacket, rfl, hcontent⟩
    · have hidentity := identity_mem_of_mem_sharedContents hcontent
      rcases List.mem_append.mp hnode with hlive | hsaved
      · exact ⟨node, (h.replicas author).findNode_live hlive, hidentity⟩
      · exact exists_live_of_holds (hheld node hsaved _ hidentity)
    · obtain ⟨carried, hcarried, hidentity⟩ := identity_mem_carriedIdentities hcontent
      obtain ⟨-, hcarries⟩ := ((h.replicas author).packets packet hpacket).carries _ hcarried
      exact exists_live_of_holds (hcarries _ hidentity).2.1
  · -- What the other side states of this side's making is held here.
    have hforeign : content.identity.originUid ≠ cluster.endpoint side.other := by
      rw [horigin]
      exact (h.other_ne side).symm
    have hholds : (cluster.replicas side).view.holds nodeId content.identity := by
      have hother := h.replicas side.other
      rw [Side.other_other] at hother
      rcases hauthor with ⟨node, hnode, rfl, hcontent⟩ | ⟨packet, hpacket, rfl, hcontent⟩
      · exact ((hother.nodes node hnode).foreign _ (identity_mem_of_mem_sharedContents hcontent)
          hforeign).2
      · obtain ⟨carried, hcarried, hidentity⟩ := identity_mem_carriedIdentities hcontent
        obtain ⟨-, hcarries⟩ := (hother.packets packet hpacket).carries _ hcarried
        exact (hcarries _ hidentity).2.2 hforeign
    exact exists_live_of_holds hholds

/-- What a shared commit states. -/
def ReplicaAction.Commits (action : ReplicaAction ε) : ContentSet ε := fun nodeId content =>
  ∃ ids nowUs event identity order,
    action = .operate ids nowUs nodeId (.commitShared event identity order) ∧
    content = (sharedRecord event identity order nowUs).sharedContent

/-- A commit that succeeds states an identity that nobody states. -/
theorem unstated_of_commits (h : ClusterInvariant aether cluster)
    (hheld : SavedIsHeld (cluster.replicas side).replica) {action : ReplicaAction ε}
    {history : PacketHistory α ε}
    (hown : action.IsOwn (cluster.endpoint side))
    (hstep : packetStep aether app (cluster.replicas side) action = some history)
    {nodeId : ObjId} {content content' : SharedContent ε} (hcommits : action.Commits nodeId content)
    (hstates : cluster.States aether nodeId content') :
    content'.identity ≠ content.identity := by
  obtain ⟨ids, nowUs, event, identity, order, rfl, rfl⟩ := hcommits
  intro hsame
  change content'.identity = identity at hsame
  have horigin := hown.2 event identity order rfl
  obtain ⟨live, hlive, hmem⟩ := exists_live_of_states h hheld hstates (by rw [hsame]; exact horigin)
  rw [hsame] at hmem
  obtain ⟨runtime', hresult, -⟩ := packetStep_eq_some_iff.mp hstep
  simp only [ReplicaAction.outcome, hlive] at hresult
  obtain ⟨changed, hrun, -⟩ := EffectLog.bind_result_eq_ok_iff.mp hresult
  have hcommit : commitShared (app.nodeClass ids) live event identity order nowUs =
      .ok changed := hrun
  obtain ⟨-, -, hinserted⟩ := recordInserted_of_commitShared hcommit
  -- The insertion would have found the identity.
  obtain ⟨record, hrecord, rfl⟩ := List.mem_map.mp hmem
  obtain ⟨hjournal, hshared⟩ := List.mem_filter.mp hrecord
  have hunknown := hinserted.unknown hshared
  rw [hasRecordWithIdentity, List.any_eq_false] at hunknown
  exact hunknown record hjournal (by simp [hshared, sharedRecord])

/-- An operation of one side keeps the agreement. -/
theorem eventsAgree_perform (hlawful : aether.Lawful) (h : ClusterInvariant aether cluster)
    (hagree : EventsAgree aether cluster) {action : ReplicaAction ε} {network : MemoryNetwork}
    (hdraws : DrawsNewIds aether (cluster.replicas side) action)
    (hhonest : ActsHonestly aether (cluster.replicas side)
      (cluster.replicas side.other).view action)
    (hfreezes : FreezesOneObjectEach aether app (cluster.replicas side).replica action)
    (hbrings : ActionIsCovered aether (fun nodeId content =>
      cluster.States aether nodeId content ∨ action.Commits nodeId content) action)
    (hunstated : ∀ history, packetStep aether app (cluster.replicas side) action = some history →
      ∀ nodeId content content', action.Commits nodeId content →
        cluster.States aether nodeId content' → content'.identity ≠ content.identity)
    (hperform : cluster.perform aether app side action network = some next) :
    EventsAgree aether next := by
  obtain ⟨history, hstep, hperform⟩ := Option.bind_eq_some_iff.mp hperform
  obtain ⟨sent, -, hperform⟩ := Option.bind_eq_some_iff.mp hperform
  cases hperform
  have hself : Function.update cluster.replicas side history side = history :=
    Function.update_self _ _ _
  have hother : Function.update cluster.replicas side history side.other =
      cluster.replicas side.other := Function.update_of_ne (Side.other_ne side) _ _
  have hmore : ∀ nodeId content, cluster.States aether nodeId content →
      cluster.States aether nodeId content ∨ action.Commits nodeId content :=
    fun _ _ => Or.inl
  have hcovered := covered_of_step hlawful ((hagree.covered side).mono hmore) (h.replicas side)
    hdraws hhonest hfreezes hbrings hstep
  -- Both sides state what was stated, and what the action commits.
  have hstates : ∀ nodeId content, Cluster.States aether
      { replicas := Function.update cluster.replicas side history, network := sent } nodeId
      content → cluster.States aether nodeId content ∨ action.Commits nodeId content := by
    rintro nodeId content ⟨author, hauthor⟩
    rcases Side.eq_or_other side author with rfl | rfl
    · simp only [hself] at hauthor
      exact hcovered.of_states hauthor
    · simp only [hother] at hauthor
      exact Or.inl ⟨side.other, hauthor⟩
  refine ⟨fun nodeId content content' hfirst hsecond hsame => ?_, fun author node hnode => ?_,
    fun author => ?_⟩
  · rcases hstates nodeId content hfirst with hold | hnew <;>
      rcases hstates nodeId content' hsecond with hold' | hnew'
    · exact hagree.agree nodeId content content' hold hold' hsame
    · exact absurd hsame (hunstated history hstep nodeId content' content hnew' hold)
    · exact absurd hsame.symm (hunstated history hstep nodeId content content' hnew hold')
    · obtain ⟨ids, nowUs, event, identity, order, haction, rfl⟩ := hnew
      obtain ⟨ids', nowUs', event', identity', order', haction', rfl⟩ := hnew'
      rw [haction] at haction'
      cases haction'
      rfl
  · rcases Side.eq_or_other side author with rfl | rfl
    · simp only [hself] at hnode
      exact (hcovered.nodes node hnode).resolved
    · simp only [hother] at hnode
      exact hagree.resolved _ node hnode
  · rcases Side.eq_or_other side author with rfl | rfl
    · simp only [hself]
      exact savedIsHeld_step (hagree.held author) hhonest hdraws hstep
    · simp only [hother]
      exact hagree.held _

/-- The network has no part in the agreement. -/
theorem EventsAgree.of_network (h : EventsAgree aether cluster) (network : MemoryNetwork) :
    EventsAgree aether { cluster with network := network } :=
  ⟨h.agree, h.resolved, h.held⟩

/-- A frame from the other side brings what the other side states. -/
theorem actionIsCovered_of_received {env : StepEnv} {source bytes : Bytes} {own : ReplicaView}
    (htrue : FrameIsTrue aether (cluster.replicas side.other).view own bytes)
    {stated : ContentSet ε}
    (hmore : ∀ nodeId content, cluster.States aether nodeId content → stated nodeId content) :
    ActionIsCovered aether stated (.receive env source bytes : ReplicaAction ε) := by
  intro key hkey content hcontent
  exact hmore _ _ ⟨side.other, Or.inr ⟨(key, bytes), (htrue.packet key hkey).1, rfl, hcontent⟩⟩

/-- An action of its own brings what it commits. -/
theorem actionIsCovered_of_own {action : ReplicaAction ε} {endpoint : Bytes}
    (hown : action.IsOwn endpoint) {stated : ContentSet ε}
    (hmore : ∀ nodeId content, action.Commits nodeId content → stated nodeId content) :
    ActionIsCovered aether stated action := by
  cases action with
  | receive env source bytes => exact hown.elim
  | operate ids nowUs nodeId operation =>
      rintro event identity order rfl
      exact hmore _ _ ⟨ids, nowUs, event, identity, order, rfl, rfl⟩
  | _ => trivial

theorem actsHonestly_of_own {history : PacketHistory α ε} {peer : ReplicaView}
    {action : ReplicaAction ε} (hown : action.IsOwn history.view.endpoint) :
    ActsHonestly aether history peer action := by
  cases action with
  | receive env source bytes => exact hown.elim
  | operate ids nowUs nodeId operation => exact hown
  | _ => trivial

/-- Every step keeps the agreement. -/
theorem eventsAgree_step (hlawful : aether.Lawful) {action : ClusterAction ε}
    (h : ClusterInvariant aether cluster) (hagree : EventsAgree aether cluster)
    (hdraws : ClusterDraws aether cluster action)
    (hfreezes : ClusterFreezes aether app cluster action)
    (hstep : clusterStep aether app cluster action = some next) : EventsAgree aether next := by
  -- A received frame and a restart commit nothing.
  have hquiet : ∀ action : ReplicaAction ε, (∀ nodeId content, ¬ action.Commits nodeId content) →
      ∀ side history, packetStep aether app (cluster.replicas side) action = some history →
        ∀ nodeId content content', action.Commits nodeId content →
          cluster.States aether nodeId content' → content'.identity ≠ content.identity :=
    fun action hnone _ _ _ nodeId content _ hcommits =>
      absurd hcommits (hnone nodeId content)
  cases action with
  | act side action =>
      simp only [clusterStep] at hstep
      split at hstep
      case isFalse => cases hstep
      case isTrue =>
        obtain ⟨hnew, hown⟩ := hdraws
        exact eventsAgree_perform hlawful h hagree hnew (actsHonestly_of_own hown) hfreezes
          (actionIsCovered_of_own hown fun _ _ => Or.inr)
          (fun history hpacket nodeId content content' hcommits =>
            unstated_of_commits h (hagree.held side) hown hpacket hcommits) hstep
  | deliverNext side source env =>
      simp only [clusterStep] at hstep
      split at hstep
      case h_1 => cases hstep
      case h_2 network hdeliver =>
        cases hstep
        exact hagree.of_network network
      case h_3 network bytes hdeliver =>
        rcases deliverNext_cases hdeliver with ⟨-, hnone⟩ |
          ⟨head, rest, hqueue, -, -, -, rfl, hhead⟩
        · cases hnone
        · cases hhead
          have hmem : bytes ∈ cluster.network.queues (source, cluster.endpoint side) := by
            rw [hqueue]
            exact List.mem_cons_self
          have htrue := h.received hmem
          refine eventsAgree_perform hlawful h hagree (hdraws bytes (by rw [hqueue]; rfl)) htrue
            trivial (actionIsCovered_of_received htrue fun _ _ => Or.inl)
            (hquiet _ ?_ side) hstep
          rintro nodeId content ⟨ids, nowUs, event, identity, order, hreceive, -⟩
          cases hreceive
  | dropNext source destination =>
      cases hstep
      exact hagree.of_network _
  | duplicateNext source destination =>
      cases hstep
      exact hagree.of_network _
  | disconnect source destination =>
      cases hstep
      exact hagree.of_network _
  | reconnect source destination =>
      cases hstep
      exact hagree.of_network _
  | stop side =>
      cases hstep
      exact hagree.of_network _
  | start side =>
      simp only [clusterStep] at hstep
      split at hstep
      case h_1 => cases hstep
      case h_2 network hattach =>
        have hnothing : DrawsNewIds aether (cluster.replicas side)
            (.restart : ReplicaAction ε) := trivial
        refine eventsAgree_perform hlawful h hagree hnothing trivial trivial trivial
          (hquiet _ ?_ side) hstep
        rintro nodeId content ⟨ids, nowUs, event, identity, order, hrestart, -⟩
        cases hrestart

/-- Along every run, an identity names one Event. -/
theorem eventsAgree_run (hlawful : aether.Lawful) {actions : List (ClusterAction ε)}
    {final : Cluster α ε} (hstart : ClusterStarts cluster)
    (hagree : EventsAgree aether cluster)
    (hdraws : EveryStep (clusterStep aether app)
      (fun cluster action => ClusterDraws aether cluster action ∧
        ClusterFreezes aether app cluster action) cluster actions)
    (hrun : runActions (clusterStep aether app) cluster actions = some final) :
    ClusterInvariant aether final ∧ EventsAgree aether final :=
  runActions_invariant (fun cluster => ClusterInvariant aether cluster ∧
      EventsAgree aether cluster)
    (fun _ _ _ h hnow hstep => ⟨(clusterInvariant_step hlawful h.1 hnow.1 hstep).1,
      eventsAgree_step hlawful h.1 h.2 hnow.1 hnow.2 hstep⟩)
    ⟨clusterInvariant_of_starts hstart, hagree⟩ hdraws hrun

end Invariant

section RoomContents

/-- What a step freezes has one object for each id. -/
def freezesChecked (cluster : Cluster Messages MessageAddedEvent) :
    ClusterAction MessageAddedEvent → Bool
  | .act side (.syncInitialState _ nodeId _) =>
      (findNode (cluster.replicas side).replica.runtime.nodes nodeId).all fun node =>
        let objects := reachableObjects chatAether chatRoom .networkShared node
        objects.all fun entry => objects.all fun other =>
          !decide (entry.1 = other.1) || decide (entry.2 = other.2)
  | _ => true

theorem clusterFreezes_of_checked {cluster : Cluster Messages MessageAddedEvent}
    {action : ClusterAction MessageAddedEvent}
    (hchecked : freezesChecked cluster action = true) :
    ClusterFreezes chatAether chatRoom cluster action := by
  cases action with
  | act side action =>
      cases action with
      | syncInitialState env nodeId shareId =>
          intro node hfound entry hentry other hother hsame
          rw [freezesChecked, hfound, Option.all_some, List.all_eq_true] at hchecked
          have hobjects := hchecked entry hentry
          rw [List.all_eq_true] at hobjects
          simpa [hsame] using hobjects other hother
      | _ => trivial
  | _ => trivial

theorem roomSchedule_freezes :
    EveryStep (clusterStep chatAether chatRoom) (ClusterFreezes chatAether chatRoom) roomCluster
      roomSchedule := by
  have hchecked : EveryStep (clusterStep chatAether chatRoom)
      (fun cluster action => freezesChecked cluster action = true) roomCluster roomSchedule := by
    decide +kernel
  exact hchecked.mono fun _ _ => clusterFreezes_of_checked

/-- Nothing is stated before the first Event. -/
theorem roomCluster_agrees : EventsAgree chatAether roomCluster := by
  have hlocal : ∀ side, ∀ node ∈ (roomCluster.replicas side).replica.runtime.nodes ++
      (roomCluster.replicas side).replica.storage.nodes, ∀ record ∈ node.journal,
      record.hasSharedIdentity = false := by
    intro side
    cases side <;> decide
  have hnothing : ∀ nodeId content, ¬ roomCluster.States chatAether nodeId content := by
    rintro nodeId content ⟨side, ⟨node, hnode, -, hcontent⟩ | ⟨packet, hpacket, -⟩⟩
    · obtain ⟨record, hrecord, hshared, -⟩ := mem_sharedContents.mp hcontent
      rw [hlocal side node hnode record hrecord] at hshared
      cases hshared
    · cases side <;> cases hpacket
  refine ⟨fun nodeId content _ hstates => absurd hstates (hnothing nodeId content),
    fun side node hnode record hrecord hshared => ?_,
    fun side saved hsaved identity hidentity => ?_⟩
  · rw [hlocal side node hnode record hrecord] at hshared
    cases hshared
  · obtain ⟨record, hrecord, -⟩ := List.mem_map.mp hidentity
    obtain ⟨hjournal, hshared⟩ := List.mem_filter.mp hrecord
    rw [hlocal side saved (List.mem_append_right _ hsaved) record hjournal] at hshared
    cases hshared

end RoomContents

section Guarantees

variable {cluster final : Cluster α ε} {actions : List (ClusterAction ε)}

/-- A journal that has the identity of a content has the content. -/
theorem EventsAgree.mem_of_identity (h : EventsAgree aether cluster) {side side' : Side}
    {node node' : SharedNode α ε}
    (hnode : node ∈ (cluster.replicas side).replica.runtime.nodes ++
      (cluster.replicas side).replica.storage.nodes)
    (hnode' : node' ∈ (cluster.replicas side').replica.runtime.nodes ++
      (cluster.replicas side').replica.storage.nodes)
    (hid : node'.objId = node.objId) {content : SharedContent ε}
    (hcontent : content ∈ sharedContents node.journal)
    (hidentity : content.identity ∈ sharedIdentities node'.journal) :
    content ∈ sharedContents node'.journal := by
  rw [← map_identity_sharedContents] at hidentity
  obtain ⟨content', hcontent', hsame⟩ := List.mem_map.mp hidentity
  have heq := h.agree node.objId content' content ⟨side', Or.inl ⟨node', hnode', hid, hcontent'⟩⟩
    ⟨side, Or.inl ⟨node, hnode, rfl, hcontent⟩⟩ hsame
  rwa [← heq]

theorem nodup_sharedContents {journal : List (EventRecord (SharedNodeEvent ε))}
    (h : (sharedIdentities journal).Nodup) : (sharedContents journal).Nodup := by
  rw [← map_identity_sharedContents] at h
  exact h.of_map

/-- The Node is saved with this content, and with no other record of its identity. -/
def SavedContent (history : PacketHistory α ε) (nodeId : ObjId) (content : SharedContent ε) :
    Prop :=
  ∃ saved, findNode history.replica.storage.nodes nodeId = some saved ∧
    content ∈ sharedContents saved.journal ∧
    (sharedIdentities saved.journal).count content.identity = 1

end Guarantees

end AppTraverse
