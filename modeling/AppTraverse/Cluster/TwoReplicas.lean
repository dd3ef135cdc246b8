import AppTraverse.Cluster.HonestReceipts
import AppTraverse.Cluster.MemoryNetwork
import AppTraverse.Delivery.Deliverability
import AppTraverse.Delivery.Retries

/-!
# Two replicas and the network between them

The whole system: two replicas with their storages, and the queues in which their
frames wait, get lost, arrive twice or out of order.  Either process can stop at any
point between two operations and start again from what it saved, while frames wait
for it.

`ClusterInvariant` says that what each side records is true of the other, and so is
every frame in flight.  From it: an Event that one side lists as delivered is in the
saved journal of the other, exactly once; and when neither side has anything left to
send, both journals have the same shared Events.
-/

namespace AppTraverse

open Foundations

/-- The two replicas. -/
inductive Side where
  | a
  | b
  deriving DecidableEq, Repr

/-- The other replica. -/
def Side.other : Side → Side
  | .a => .b
  | .b => .a

@[simp] theorem Side.other_other (side : Side) : side.other.other = side := by
  cases side <;> rfl

@[simp] theorem Side.other_ne (side : Side) : side.other ≠ side := by
  cases side <;> decide

theorem Side.eq_or_other (side side' : Side) : side' = side ∨ side' = side.other := by
  cases side <;> cases side' <;> decide

/-- One value for each side. -/
def Side.select {β : Type} (ofA ofB : β) : Side → β
  | .a => ofA
  | .b => ofB

/-- Two replicas and the network they are attached to. -/
structure Cluster (α ε : Type) where
  replicas : Side → PacketHistory α ε
  network : MemoryNetwork

/-- What can happen next. -/
inductive ClusterAction (ε : Type) where
  | act (side : Side) (action : ReplicaAction ε)
  | deliverNext (side : Side) (source : Bytes) (env : StepEnv)
  | dropNext (source destination : Bytes)
  | duplicateNext (source destination : Bytes)
  | disconnect (source destination : Bytes)
  | reconnect (source destination : Bytes)
  | stop (side : Side)
  | start (side : Side)

section Steps

variable {α ε : Type} (aether : Aether α ε) (app : AppClass α ε)

/-- The endpoint of a replica. -/
def Cluster.endpoint (cluster : Cluster α ε) (side : Side) : Bytes :=
  (cluster.replicas side).view.endpoint

/-- What effects send, handed to the transport in their order. -/
def sendEffects (source : Bytes) (network : MemoryNetwork) :
    List (Effect α ε) → Except Fault MemoryNetwork
  | [] => .ok network
  | .send destination bytes :: rest => do
      let sent ← network.send source destination bytes
      sendEffects source sent rest
  | _ :: rest => sendEffects source network rest

/-- An operation of one replica, and what it sends. -/
def Cluster.perform (cluster : Cluster α ε) (side : Side) (action : ReplicaAction ε)
    (network : MemoryNetwork) : Option (Cluster α ε) := do
  let next ← packetStep aether app (cluster.replicas side) action
  let sent ← (sendEffects (cluster.endpoint side) network
    (action.outcome aether app (cluster.replicas side).replica).effects).toOption
  some { replicas := Function.update cluster.replicas side next, network := sent }

/-- One step of the system.  Only an attached replica operates; a start attaches it and
loads what it saved. -/
def clusterStep (cluster : Cluster α ε) : ClusterAction ε → Option (Cluster α ε)
  | .act side action =>
      if cluster.endpoint side ∈ cluster.network.endpoints then
        cluster.perform aether app side action cluster.network
      else
        none
  | .deliverNext side source env =>
      match cluster.network.deliverNext source (cluster.endpoint side) with
      | .error _ => none
      | .ok (network, none) => some { cluster with network := network }
      | .ok (network, some bytes) =>
          cluster.perform aether app side (.receive env source bytes) network
  | .dropNext source destination =>
      some { cluster with network := (cluster.network.dropNext source destination).1 }
  | .duplicateNext source destination =>
      some { cluster with network := (cluster.network.duplicateNext source destination).1 }
  | .disconnect source destination =>
      some { cluster with network := cluster.network.disconnect source destination }
  | .reconnect source destination =>
      some { cluster with network := cluster.network.reconnect source destination }
  | .stop side =>
      let endpoint := cluster.endpoint side
      some { cluster with network := (cluster.network.clearReceive endpoint).detach endpoint }
  | .start side =>
      match cluster.network.attach (cluster.endpoint side) with
      | .error _ => none
      | .ok network =>
          cluster.perform aether app side .restart
            (network.bindReceive (cluster.endpoint side))

/-- An operation a replica may do by itself: it shares Events under its own endpoint
and compacts no journal. -/
def ReplicaAction.IsOwn (endpoint : Bytes) : ReplicaAction ε → Prop
  | .receive _ _ _ => False
  | .operate _ _ _ operation => operation ≠ .compactJournal ∧
      ∀ event identity order, operation = .commitShared event identity order →
        identity.originUid = endpoint
  | _ => True

/-- The ids that a step draws are valid and new, and what a replica does by itself is
its own. -/
def ClusterDraws (cluster : Cluster α ε) : ClusterAction ε → Prop
  | .act side action => DrawsNewIds aether (cluster.replicas side) action ∧
      action.IsOwn (cluster.endpoint side)
  | .deliverNext side source env => ∀ bytes,
      (cluster.network.queues (source, cluster.endpoint side)).head? = some bytes →
      DrawsNewIds aether (cluster.replicas side)
        (.receive env source bytes : ReplicaAction ε)
  | _ => True

/-- Nothing has been synchronized, every shared Event is one of its own replica, and
nothing is in flight. -/
structure ClusterStarts (cluster : Cluster α ε) : Prop where
  apart : cluster.endpoint .a ≠ cluster.endpoint .b
  fits : ∀ side, (cluster.endpoint side).length < 2 ^ 32
  unsynchronized : ∀ side, StartsUnsynchronized (cluster.replicas side)
  own : ∀ side, ∀ node ∈ (cluster.replicas side).replica.runtime.nodes ++
      (cluster.replicas side).replica.storage.nodes,
    (sharedIdentities node.journal).Nodup ∧
      ∀ identity ∈ sharedIdentities node.journal,
        identity.originUid = cluster.endpoint side
  silent : ∀ direction, cluster.network.queues direction = []

/-- What both sides record of each other is true, and so is what is in flight. -/
structure ClusterInvariant (cluster : Cluster α ε) : Prop where
  apart : cluster.endpoint .a ≠ cluster.endpoint .b
  replicas : ∀ side, DeliveryInvariant aether (cluster.replicas side)
    (cluster.replicas side.other).view
  frames : ∀ source destination, ∀ bytes ∈ cluster.network.queues (source, destination),
    ∃ side, source = cluster.endpoint side ∧ destination ≠ source ∧
      (destination = cluster.endpoint side.other → FrameIsTrue aether
        (cluster.replicas side).view (cluster.replicas side.other).view bytes)

end Steps

variable {α ε : Type} {aether : Aether α ε} {app : AppClass α ε}

section Network

variable {network : MemoryNetwork} {source destination : Bytes}

/-- What waits after a head was taken waited before. -/
theorem mem_popFront {direction : Direction} {bytes : Bytes}
    (h : bytes ∈ (network.popFront source destination).queues direction) :
    bytes ∈ network.queues direction := by
  by_cases hdirection : direction = (source, destination)
  · subst hdirection
    rw [queues_popFront_self] at h
    exact List.mem_of_mem_tail h
  · rwa [queues_popFront_of_ne network hdirection] at h

theorem mem_dropNext {direction : Direction} {bytes : Bytes}
    (h : bytes ∈ (network.dropNext source destination).1.queues direction) :
    bytes ∈ network.queues direction := by
  unfold MemoryNetwork.dropNext at h
  split at h
  case isTrue => exact h
  case isFalse => exact mem_popFront h

theorem mem_duplicateNext {direction : Direction} {bytes : Bytes}
    (h : bytes ∈ (network.duplicateNext source destination).1.queues direction) :
    bytes ∈ network.queues direction := by
  unfold MemoryNetwork.duplicateNext at h
  cases hqueue : network.queues (source, destination) with
  | nil =>
      rw [hqueue] at h
      exact h
  | cons head rest =>
      rw [hqueue] at h
      by_cases hdirection : direction = (source, destination)
      · subst hdirection
        rw [queues_pushBack_self, hqueue, List.mem_append, List.mem_singleton] at h
        rw [hqueue]
        rcases h with hold | rfl
        · exact hold
        · exact List.mem_cons_self
      · rwa [queues_pushBack_of_ne network hdirection] at h

/-- What waits after a send waited before or was sent now, by this sender to another
endpoint. -/
theorem mem_sendEffects {effects : List (Effect α ε)} {sent : MemoryNetwork}
    (h : sendEffects source network effects = .ok sent) {direction : Direction} {bytes : Bytes}
    (hmem : bytes ∈ sent.queues direction) :
    bytes ∈ network.queues direction ∨ (direction.1 = source ∧ direction.2 ≠ source ∧
      .send direction.2 bytes ∈ effects) := by
  induction effects generalizing network with
  | nil =>
      cases h
      exact Or.inl hmem
  | cons effect rest ih =>
      cases effect with
      | send target packet =>
          obtain ⟨middle, hsend, hrest⟩ := except_bind_eq_ok_iff.mp h
          obtain ⟨checked, hother, hsend⟩ := except_bind_eq_ok_iff.mp hsend
          rw [assertThat_eq_ok_iff, decide_eq_true_eq] at hother
          cases hsend
          rcases ih hrest with hwaits | ⟨hsource, htarget, hlater⟩
          · unfold MemoryNetwork.enqueue at hwaits
            split at hwaits
            case isTrue => exact Or.inl hwaits
            case isFalse =>
              by_cases hdirection : direction = (source, target)
              · subst hdirection
                rw [queues_pushBack_self, List.mem_append, List.mem_singleton] at hwaits
                rcases hwaits with hold | rfl
                · exact Or.inl hold
                · exact Or.inr ⟨rfl, hother, List.mem_cons_self⟩
              · rw [queues_pushBack_of_ne network hdirection] at hwaits
                exact Or.inl hwaits
          · exact Or.inr ⟨hsource, htarget, List.mem_cons_of_mem _ hlater⟩
      | _ =>
          rcases ih h with hwaits | ⟨hsource, htarget, hlater⟩
          · exact Or.inl hwaits
          · exact Or.inr ⟨hsource, htarget, List.mem_cons_of_mem _ hlater⟩

end Network

section Invariant

variable {cluster next : Cluster α ε} {side : Side}

/-- What a side records stays true while the other goes on. -/
theorem DeliveryInvariant.mono {history : PacketHistory α ε} {peer peer' : ReplicaView}
    (h : DeliveryInvariant aether history peer) (hpeer : peer.Grows peer') :
    DeliveryInvariant aether history peer' where
  ledger := h.ledger
  nodes := fun node hnode => (h.nodes node hnode).mono (.refl _) hpeer
  packets := fun packet hpacket => (h.packets packet hpacket).mono (.refl _) hpeer
  fits := h.fits

/-- The invariant says the same of either side. -/
theorem ClusterInvariant.other_ne (h : ClusterInvariant aether cluster) (side : Side) :
    cluster.endpoint side.other ≠ cluster.endpoint side := by
  cases side with
  | a => exact h.apart.symm
  | b => exact h.apart

/-- Fewer frames in flight. -/
theorem ClusterInvariant.of_network (h : ClusterInvariant aether cluster)
    {network : MemoryNetwork}
    (hnetwork : ∀ direction, ∀ bytes ∈ network.queues direction,
      bytes ∈ cluster.network.queues direction) :
    ClusterInvariant aether { cluster with network := network } :=
  ⟨h.apart, h.replicas, fun source destination bytes hmem =>
    h.frames source destination bytes (hnetwork _ bytes hmem)⟩

/-- What waits for a side is a true frame of the other one: nobody sends to itself. -/
theorem ClusterInvariant.received (h : ClusterInvariant aether cluster) {source bytes : Bytes}
    (hmem : bytes ∈ cluster.network.queues (source, cluster.endpoint side)) :
    FrameIsTrue aether (cluster.replicas side.other).view (cluster.replicas side).view bytes := by
  obtain ⟨sender, hsender, hapart, htrue⟩ := h.frames _ _ bytes hmem
  rcases Side.eq_or_other side sender with rfl | rfl
  · exact absurd hsender.symm hapart
  · rw [Side.other_other] at htrue
    exact htrue rfl

/-- Both views of a cluster. -/
def Cluster.Grows (before after : Cluster α ε) : Prop :=
  ∀ side, (before.replicas side).view.Grows (after.replicas side).view

/-- An honest operation of one replica keeps the invariant. -/
theorem clusterInvariant_perform (hlawful : aether.Lawful)
    (h : ClusterInvariant aether cluster) {action : ReplicaAction ε} {network : MemoryNetwork}
    (hnetwork : ∀ direction, ∀ bytes ∈ network.queues direction,
      bytes ∈ cluster.network.queues direction)
    (hdraws : DrawsNewIds aether (cluster.replicas side) action)
    (hhonest : ActsHonestly aether (cluster.replicas side)
      (cluster.replicas side.other).view action)
    (hperform : cluster.perform aether app side action network = some next) :
    ClusterInvariant aether next ∧ cluster.Grows next := by
  obtain ⟨history, hstep, hperform⟩ := Option.bind_eq_some_iff.mp hperform
  obtain ⟨sent, hsends, hperform⟩ := Option.bind_eq_some_iff.mp hperform
  rw [toOption_eq_some_iff] at hsends
  cases hperform
  obtain ⟨hkept, hgrows, hframes⟩ := honest_step hlawful (h.replicas side)
    (h.other_ne side) hdraws hhonest hstep
  have hself : Function.update cluster.replicas side history side = history :=
    Function.update_self _ _ _
  have hother : Function.update cluster.replicas side history side.other =
      cluster.replicas side.other := Function.update_of_ne (Side.other_ne side) _ _
  have hall : cluster.Grows
      { replicas := Function.update cluster.replicas side history, network := sent } := by
    intro side'
    rcases Side.eq_or_other side side' with rfl | rfl
    · simp only [hself]
      exact hgrows
    · simp only [hother]
      exact .refl _
  refine ⟨⟨?_, fun side' => ?_, fun source destination bytes hmem => ?_⟩, hall⟩
  · show ¬ (Function.update cluster.replicas side history .a).view.endpoint =
      (Function.update cluster.replicas side history .b).view.endpoint
    rw [(hall .a).endpoint, (hall .b).endpoint]
    exact h.apart
  · rcases Side.eq_or_other side side' with rfl | rfl
    · simp only [hself, hother]
      exact hkept
    · simp only [hother, Side.other_other, hself]
      have hpeer := h.replicas side.other
      rw [Side.other_other] at hpeer
      exact hpeer.mono hgrows
  · rcases mem_sendEffects hsends hmem with hwaits | ⟨hsource, htarget, hsend⟩
    · -- The frame waited before.
      obtain ⟨sender, hsender, hapart, htrue⟩ :=
        h.frames source destination bytes (hnetwork _ bytes hwaits)
      refine ⟨sender, ?_, hapart, fun hdestination => ?_⟩
      · rw [hsender]
        exact (hall sender).endpoint.symm
      · have hbefore : destination = cluster.endpoint sender.other := by
          rw [hdestination]
          exact (hall sender.other).endpoint
        exact (htrue hbefore).mono (hall sender) (hall sender.other)
    · -- It is one of those sent now.
      refine ⟨side, ?_, ?_, fun hdestination => ?_⟩
      · rw [show source = cluster.endpoint side from hsource]
        exact (hall side).endpoint.symm
      · rw [show source = cluster.endpoint side from hsource]
        exact htarget
      · simp only [hself, hother]
        exact hframes destination bytes hsend

theorem Cluster.Grows.refl (cluster : Cluster α ε) : cluster.Grows cluster :=
  fun _ => .refl _

/-- Every step keeps the invariant. -/
theorem clusterInvariant_step (hlawful : aether.Lawful) {action : ClusterAction ε}
    (h : ClusterInvariant aether cluster) (hdraws : ClusterDraws aether cluster action)
    (hstep : clusterStep aether app cluster action = some next) :
    ClusterInvariant aether next ∧ cluster.Grows next := by
  have hsame : ∀ direction, ∀ bytes ∈ cluster.network.queues direction,
      bytes ∈ cluster.network.queues direction := fun _ _ hmem => hmem
  cases action with
  | act side action =>
      simp only [clusterStep] at hstep
      split at hstep
      case isFalse => cases hstep
      case isTrue =>
        refine clusterInvariant_perform hlawful h hsame hdraws.1 ?_ hstep
        have hown := hdraws.2
        cases action with
        | receive env source bytes => exact hown.elim
        | operate ids nowUs nodeId operation => exact hown
        | _ => trivial
  | deliverNext side source env =>
      simp only [clusterStep] at hstep
      split at hstep
      case h_1 => cases hstep
      case h_2 network hdeliver =>
        cases hstep
        rcases deliverNext_cases hdeliver with ⟨rfl, -⟩ | ⟨_, _, -, -, -, -, -, hnone⟩
        · exact ⟨h.of_network hsame, .refl cluster⟩
        · cases hnone
      case h_3 network bytes hdeliver =>
        rcases deliverNext_cases hdeliver with ⟨-, hnone⟩ |
          ⟨head, rest, hqueue, -, -, -, rfl, hhead⟩
        · cases hnone
        · cases hhead
          have hmem : bytes ∈ cluster.network.queues (source, cluster.endpoint side) := by
            rw [hqueue]
            exact List.mem_cons_self
          exact clusterInvariant_perform hlawful h (fun direction other hother =>
            mem_popFront hother) (hdraws bytes (by rw [hqueue]; rfl)) (h.received hmem) hstep
  | dropNext source destination =>
      cases hstep
      exact ⟨h.of_network fun _ _ hmem => mem_dropNext hmem, .refl cluster⟩
  | duplicateNext source destination =>
      cases hstep
      exact ⟨h.of_network fun _ _ hmem => mem_duplicateNext hmem, .refl cluster⟩
  | disconnect source destination =>
      cases hstep
      exact ⟨h.of_network hsame, .refl cluster⟩
  | reconnect source destination =>
      cases hstep
      exact ⟨h.of_network hsame, .refl cluster⟩
  | stop side =>
      cases hstep
      exact ⟨h.of_network hsame, .refl cluster⟩
  | start side =>
      simp only [clusterStep] at hstep
      split at hstep
      case h_1 => cases hstep
      case h_2 network hattach =>
        obtain ⟨-, -, hattach⟩ := except_bind_eq_ok_iff.mp hattach
        obtain ⟨-, -, hattach⟩ := except_bind_eq_ok_iff.mp hattach
        cases hattach
        have hnothing : DrawsNewIds aether (cluster.replicas side)
            (.restart : ReplicaAction ε) := trivial
        refine clusterInvariant_perform hlawful h ?_ hnothing trivial hstep
        exact hsame

/-- Untouched sync states hold no packet, so an outbox starts empty. -/
theorem ledger_of_startsUnsynchronized {history : PacketHistory α ε}
    (h : StartsUnsynchronized history) :
    ∃ box, LedgerInvariant history box ∧ ∀ packet ∈ box.frozen, packet ∈ history.sent := by
  have hidle : ∀ node ∈ history.replica.runtime.nodes ++ history.replica.storage.nodes,
      NodeIsKept node ∧ nodePackets node = [] := by
    intro node hnode
    refine nodeIsKept_of_isIdle fun entry hentry => ?_
    obtain ⟨state, hobj, huntouched⟩ := h.localStates node hnode entry hentry
    refine ⟨state, hobj, ?_⟩
    rw [huntouched]
    exact LinkSyncState.isIdle_fresh _ _
  have hempty : ∀ nodes : List (SharedNode α ε), (∀ node ∈ nodes, nodePackets node = []) →
      packetsOf nodes = ∅ := by
    intro nodes hnodes
    ext packet
    constructor
    · rintro ⟨node, hnode, hpacket⟩
      rw [hnodes node hnode] at hpacket
      cases hpacket
    · exact False.elim
  refine ⟨{}, ⟨Outbox.sound_empty, ?_, ?_, by simp [h.nothingSent.1],
    by simp [h.nothingSent.2], fun packet hpacket => hpacket.elim, ?_, ?_⟩,
    fun packet hpacket => hpacket.elim⟩
  · exact (hempty _ fun node hnode => (hidle node (List.mem_append_left _ hnode)).2).symm
  · exact (hempty _ fun node hnode => (hidle node (List.mem_append_right _ hnode)).2).symm
  · exact nodesAreKept_of_forall h.registered fun node hnode =>
      (hidle node (List.mem_append_left _ hnode)).1
  · exact nodesAreKept_of_forall h.saved fun node hnode =>
      (hidle node (List.mem_append_right _ hnode)).1

theorem clusterInvariant_of_starts (h : ClusterStarts cluster) :
    ClusterInvariant aether cluster where
  apart := h.apart
  replicas := by
    intro side
    refine ⟨ledger_of_startsUnsynchronized (h.unsynchronized side), fun node hnode => ?_, ?_,
      h.fits side⟩
    · obtain ⟨honce, hown⟩ := h.own side node hnode
      refine ⟨honce, fun identity hidentity => ?_, fun identity hidentity hforeign => ?_,
        fun entry hentry state hstate => ?_⟩
      · rw [hown identity hidentity]
        exact h.fits side
      · exact absurd (hown identity hidentity) hforeign
      · obtain ⟨found, hobj, huntouched⟩ :=
          (h.unsynchronized side).localStates node hnode entry hentry
        cases hobj.symm.trans hstate
        rw [huntouched]
        exact stateIsTrue_fresh _ _ _
    · simp [(h.unsynchronized side).nothingSent.1]
  frames := by
    intro source destination bytes hmem
    rw [h.silent] at hmem
    cases hmem

/-- Along every run, what is recorded and what is in flight is true. -/
theorem clusterInvariant_run (hlawful : aether.Lawful) {actions : List (ClusterAction ε)}
    {final : Cluster α ε} (hstart : ClusterStarts cluster)
    (hdraws : EveryStep (clusterStep aether app) (ClusterDraws aether) cluster actions)
    (hrun : runActions (clusterStep aether app) cluster actions = some final) :
    ClusterInvariant aether final :=
  runActions_invariant (ClusterInvariant aether)
    (fun _ _ _ h hnow hstep => (clusterInvariant_step hlawful h hnow hstep).1)
    (clusterInvariant_of_starts hstart) hdraws hrun

/-- Registered Nodes have distinct ids, so each is found under its own. -/
theorem DeliveryInvariant.findNode_live {history : PacketHistory α ε} {peer : ReplicaView}
    (h : DeliveryInvariant aether history peer) {node : SharedNode α ε}
    (hnode : node ∈ history.replica.runtime.nodes) :
    findNode history.replica.runtime.nodes node.objId = some node := by
  obtain ⟨box, hledger, -⟩ := h.ledger
  have hsome : (findNode history.replica.runtime.nodes node.objId).isSome = true := by
    rw [findNode, List.find?_isSome]
    exact ⟨node, hnode, decide_eq_true rfl⟩
  obtain ⟨found, hfound⟩ := Option.isSome_iff_exists.mp hsome
  rw [hfound, hledger.memory.eq_of_objId (List.mem_of_find?_eq_some hfound) hnode
    (objId_of_findNode hfound)]

/-- The saved Node of this id has one record of the identity. -/
def SavedOnce (history : PacketHistory α ε) (nodeId : ObjId) (identity : SharedEventId) :
    Prop :=
  ∃ saved, findNode history.replica.storage.nodes nodeId = some saved ∧
    (sharedIdentities saved.journal).count identity = 1

theorem DeliveryInvariant.savedOnce {history : PacketHistory α ε} {peer : ReplicaView}
    (h : DeliveryInvariant aether history peer) {nodeId : ObjId} {identity : SharedEventId}
    (hholds : history.view.holds nodeId identity) : SavedOnce history nodeId identity := by
  obtain ⟨saved, hsaved, hmem⟩ := exists_saved_of_holds hholds
  refine ⟨saved, hsaved, ?_⟩
  exact List.count_eq_one_of_mem (h.saved (List.mem_of_find?_eq_some hsaved)).once hmem

end Invariant

/-- This side has nothing to send to the other for a Node: no Event is pending, and the
journal has none that is neither delivered nor of the other's own making. -/
def Cluster.HasSentAll (cluster : Cluster α ε) (side : Side) (nodeId : ObjId)
    (node : SharedNode α ε) : Prop :=
  ∃ shareId index state,
    IsSyncDestination (cluster.replicas side).replica.runtime nodeId shareId node
      (cluster.endpoint side.other) index state ∧
    state.hasPendingEvent = false ∧
    nextUndeliveredSharedEvent node.journal state (cluster.endpoint side.other) = none

section RoomCluster

/-- A client that takes Message Events. -/
def joiningClient : Replica Messages MessageAddedEvent :=
  { waitingClient with
    runtime := { waitingClient.runtime with
      standaloneEventClasses := [messageAddedEventClassId] } }

/-- A host with a room and a client that waits for it. -/
def roomCluster : Cluster Messages MessageAddedEvent where
  replicas := Side.select hostHistory { replica := joiningClient }
  network :=
    { endpoints := {hostEndpoint, clientEndpoint}
      receivers := {hostEndpoint, clientEndpoint} }

/-- The host commits a message. -/
def hostShares : ReplicaAction MessageAddedEvent :=
  .operate (idsFrom 1000) 100 ⟨10⟩
    (.commitShared ⟨⟨30⟩, some (.app ⟨message hostEndpoint 1 50 [104, 105]⟩)⟩
      (message hostEndpoint 1 50 [104, 105]).id ⟨50⟩)

/-- The client commits another. -/
def clientShares : ReplicaAction MessageAddedEvent :=
  .operate (idsFrom 1000) 110 ⟨10⟩
    (.commitShared ⟨⟨31⟩, some (.app ⟨message clientEndpoint 1 60 [121, 111]⟩)⟩
      (message clientEndpoint 1 60 [121, 111]).id ⟨60⟩)

/-- The room arrives twice, the first Ack of it is lost, the message follows, and the
client is restarted before it arrives. -/
def roomSchedule : List (ClusterAction MessageAddedEvent) :=
  [.act .a (.syncInitialState (drawingEnv 2000) ⟨10⟩ ⟨15⟩),
    .duplicateNext hostEndpoint clientEndpoint,
    .act .a hostShares,
    .deliverNext .b hostEndpoint (drawingEnv 2001),
    .dropNext clientEndpoint hostEndpoint,
    .deliverNext .b hostEndpoint (drawingEnv 2002),
    .deliverNext .a clientEndpoint (drawingEnv 2003),
    .act .a (.syncNextEvent (drawingEnv 2004) ⟨10⟩ ⟨15⟩),
    .stop .b,
    .start .b,
    .deliverNext .b hostEndpoint (drawingEnv 2005),
    .deliverNext .a clientEndpoint (drawingEnv 2006),
    .act .b clientShares,
    .act .b (.syncNextEvent (drawingEnv 2007) ⟨10⟩ ⟨14⟩),
    .deliverNext .a clientEndpoint (drawingEnv 2008),
    .deliverNext .b hostEndpoint (drawingEnv 2009)]

/-- The id is valid and not drawn yet. -/
def isNewId (cluster : Cluster Messages MessageAddedEvent) (side : Side) (id : ObjId) :
    Bool :=
  id.isValid && decide (id ∉ (cluster.replicas side).drawn)

/-- The payload of a frame has none of the ids that a scratch Domain generates. -/
def avoidsScratchIds (bytes : Bytes) : Bool :=
  (decodeNodeStateFrame bytes).all fun frame =>
    (deserializeObjectGraph chatAether frame.payload).all fun parsed =>
      (List.range 64).all fun k => (parsed.layers? ⟨UInt32.ofNat (4000 + k)⟩).isNone

/-- What a step draws is checked before it. -/
def drawsChecked (cluster : Cluster Messages MessageAddedEvent) :
    ClusterAction MessageAddedEvent → Bool
  | .act side (.syncInitialState env _ _) => isNewId cluster side env.eventId
  | .act side (.syncNextEvent env _ _) => isNewId cluster side env.eventId
  | .act side (.operate _ _ _ (.commitShared _ identity _)) =>
      decide (identity.originUid = cluster.endpoint side)
  | .act _ _ => false
  | .deliverNext side source env => isNewId cluster side env.eventId &&
      (cluster.network.queues (source, cluster.endpoint side)).head?.all avoidsScratchIds
  | _ => true

/-- The scratch ids of a step are those of the client. -/
def UsesDrawingEnv : ClusterAction MessageAddedEvent → Prop
  | .deliverNext _ _ env => env.scratch = (receiverEnv true).scratch
  | _ => True

theorem clusterDraws_of_checked {cluster : Cluster Messages MessageAddedEvent}
    {action : ClusterAction MessageAddedEvent} (hchecked : drawsChecked cluster action = true)
    (henv : UsesDrawingEnv action) : ClusterDraws chatAether cluster action := by
  cases action with
  | act side action =>
      cases action with
      | receive env source bytes => cases hchecked
      | syncInitialState env nodeId shareId =>
          rw [drawsChecked, isNewId, Bool.and_eq_true, decide_eq_true_eq] at hchecked
          exact ⟨hchecked, trivial⟩
      | syncNextEvent env nodeId shareId =>
          rw [drawsChecked, isNewId, Bool.and_eq_true, decide_eq_true_eq] at hchecked
          exact ⟨hchecked, trivial⟩
      | operate ids nowUs nodeId operation =>
          cases operation with
          | commitShared event identity order =>
              rw [drawsChecked, decide_eq_true_eq] at hchecked
              refine ⟨trivial, by simp, fun _ _ _ hsame => ?_⟩
              cases hsame
              exact hchecked
          | _ => cases hchecked
      | saveNode nodeId => cases hchecked
      | restart => cases hchecked
  | deliverNext side source env =>
      rw [drawsChecked, isNewId, Bool.and_eq_true, Bool.and_eq_true,
        decide_eq_true_eq] at hchecked
      obtain ⟨⟨hvalid, hnew⟩, havoids⟩ := hchecked
      intro bytes hhead
      rw [hhead] at havoids
      refine ⟨hvalid, hnew, fun frame hframe n => ?_⟩
      rw [show env.scratch = (receiverEnv true).scratch from henv]
      refine ⟨forall_idsFrom (fun id => id.isValid = true) 4000 (by decide) n,
        fun parsed hparsed => ?_⟩
      simp only [Option.all_some, avoidsScratchIds, hframe, hparsed, List.all_eq_true,
        List.mem_range, Option.isNone_iff_eq_none] at havoids
      exact forall_idsFrom (fun id => parsed.layers? id = none) 4000 havoids n
  | _ => trivial

theorem roomSchedule_draws :
    EveryStep (clusterStep chatAether chatRoom) (ClusterDraws chatAether) roomCluster
      roomSchedule := by
  have hchecked : EveryStep (clusterStep chatAether chatRoom)
      (fun cluster action => drawsChecked cluster action = true) roomCluster roomSchedule := by
    decide +kernel
  have henv : EveryStep (clusterStep chatAether chatRoom) (fun _ action => UsesDrawingEnv action)
      roomCluster roomSchedule := by
    refine everyStep_of_mem fun action hmem _ => ?_
    simp only [roomSchedule, List.mem_cons, List.not_mem_nil, or_false] at hmem
    rcases hmem with rfl | rfl | rfl | rfl | rfl | rfl | rfl | rfl | rfl | rfl | rfl | rfl |
      rfl | rfl | rfl | rfl
    all_goals first | exact rfl | trivial
  exact (hchecked.and henv).mono fun _ _ h => clusterDraws_of_checked h.1 h.2

theorem hostHistory_starts : StartsUnsynchronized hostHistory := by
  refine ⟨by decide, by decide, fun node hnode entry hentry => ?_, rfl, rfl⟩
  have hroom : node = syncedRoom hostLinkState clientLinkState [] [] := by
    rcases List.mem_append.mp hnode with hmem | hmem
    · exact List.mem_singleton.mp hmem
    · exact List.mem_singleton.mp hmem
  rw [hroom] at hentry
  rcases List.mem_cons.mp hentry with rfl | hentry
  · exact ⟨hostLinkState, rfl, rfl⟩
  · rw [List.mem_singleton.mp hentry]
    exact ⟨clientLinkState, rfl, rfl⟩

theorem roomCluster_starts : ClusterStarts roomCluster where
  apart := by decide
  fits := by
    intro side
    cases side <;> decide
  unsynchronized := by
    intro side
    cases side with
    | a => exact hostHistory_starts
    | b =>
        refine ⟨List.nodup_nil, List.nodup_nil, ?_, rfl, rfl⟩
        simp [roomCluster, Side.select, joiningClient, waitingClient]
  own := by
    intro side
    cases side <;> decide
  silent := fun _ => rfl

/-- The room of a side that has nothing to send over a Share, and its delivery state. -/
def quietRoom (cluster : Cluster Messages MessageAddedEvent) (side : Side) (shareId : ObjId) :
    Option (SharedNode Messages MessageAddedEvent × LinkSyncState) :=
  match syncDestination (cluster.replicas side).replica.runtime ⟨10⟩ shareId with
  | .error _ => none
  | .ok (node, destination, _, state) =>
      if destination = cluster.endpoint side.other ∧ state.hasPendingEvent = false ∧
          nextUndeliveredSharedEvent node.journal state destination = none then
        some (node, state)
      else
        none

theorem quietRoom_spec {cluster : Cluster Messages MessageAddedEvent} {side : Side}
    {shareId : ObjId} {node : SharedNode Messages MessageAddedEvent} {state : LinkSyncState}
    (h : quietRoom cluster side shareId = some (node, state)) :
    ∃ shareId index, IsSyncDestination (cluster.replicas side).replica.runtime ⟨10⟩ shareId
        node (cluster.endpoint side.other) index state ∧
      state.hasPendingEvent = false ∧
      nextUndeliveredSharedEvent node.journal state (cluster.endpoint side.other) = none := by
  unfold quietRoom at h
  split at h
  case h_1 => cases h
  case h_2 target destination index found hdestination =>
    split at h
    case isFalse => cases h
    case isTrue hquiet =>
      cases h
      obtain ⟨rfl, hidle, hnone⟩ := hquiet
      exact ⟨shareId, index, isSyncDestination_of_eq_ok hdestination, hidle, hnone⟩

theorem hasSentAll_of_quietRoom {cluster : Cluster Messages MessageAddedEvent} {side : Side}
    {shareId : ObjId} {node : SharedNode Messages MessageAddedEvent} {state : LinkSyncState}
    (h : quietRoom cluster side shareId = some (node, state)) :
    cluster.HasSentAll side ⟨10⟩ node := by
  obtain ⟨shareId, index, hdestination, hidle, hnone⟩ := quietRoom_spec h
  exact ⟨shareId, index, state, hdestination, hidle, hnone⟩

/-- The rooms of both sides and the delivery state of the host, once both are quiet. -/
def quietRooms (cluster : Cluster Messages MessageAddedEvent) :
    Option (SharedNode Messages MessageAddedEvent × SharedNode Messages MessageAddedEvent ×
      LinkSyncState) := do
  let (host, state) ← quietRoom cluster .a ⟨15⟩
  let (client, _) ← quietRoom cluster .b ⟨14⟩
  some (host, client, state)

/-- After the schedule both rooms are quiet and have both messages. -/
theorem roomSchedule_isQuiet :
    ∃ final host client state,
      runActions (clusterStep chatAether chatRoom) roomCluster roomSchedule = some final ∧
      quietRoom final .a ⟨15⟩ = some (host, state) ∧
      final.HasSentAll .a ⟨10⟩ host ∧ final.HasSentAll .b ⟨10⟩ client ∧
      (sharedIdentities host.journal).length = 2 ∧
      (message hostEndpoint 1 50 [104, 105]).id ∈ state.deliveredEventIds := by
  have hcheck : ((runActions (clusterStep chatAether chatRoom) roomCluster
      roomSchedule).bind quietRooms).map (fun rooms =>
        (decide ((sharedIdentities rooms.1.journal).length = 2),
          decide ((message hostEndpoint 1 50 [104, 105]).id ∈ rooms.2.2.deliveredEventIds))) =
      some (true, true) := by
    decide +kernel
  obtain ⟨⟨host, client, state⟩, hrooms, hcheck⟩ := Option.map_eq_some_iff.mp hcheck
  obtain ⟨final, hrun, hrooms⟩ := Option.bind_eq_some_iff.mp hrooms
  obtain ⟨⟨host', state'⟩, hhost, hrooms⟩ := Option.bind_eq_some_iff.mp hrooms
  obtain ⟨⟨client', _⟩, hclient, hrooms⟩ := Option.bind_eq_some_iff.mp hrooms
  cases hrooms
  simp only [Prod.mk.injEq, decide_eq_true_eq] at hcheck
  exact ⟨final, host, client, state, hrun, hhost, hasSentAll_of_quietRoom hhost,
    hasSentAll_of_quietRoom hclient, hcheck⟩

end RoomCluster

section Guarantees

variable {cluster final : Cluster α ε} {actions : List (ClusterAction ε)}

/-- What a side without anything to send has, the other side has too. -/
theorem known_of_hasSentAll {side : Side} {nodeId : ObjId} {node : SharedNode α ε}
    (h : ClusterInvariant aether cluster) (hall : cluster.HasSentAll side nodeId node) :
    ∀ identity ∈ sharedIdentities node.journal,
      (cluster.replicas side.other).view.holds nodeId identity := by
  obtain ⟨shareId, index, state, hdestination, hidle, hnone⟩ := hall
  have hmem := List.mem_of_find?_eq_some hdestination.found
  have hid := objId_of_findNode hdestination.found
  have htrue := (h.replicas side).live hmem
  obtain ⟨entry, hentry, hobj⟩ :=
    Option.bind_eq_some_iff.mp (linkSyncStateAt_eq_ok_iff.mp hdestination.state_eq)
  have hstate := htrue.states entry (List.mem_of_getElem? hentry) state hobj
  intro identity hidentity
  obtain ⟨record, hrecord, rfl⟩ := List.mem_map.mp hidentity
  obtain ⟨hjournal, hshared⟩ := List.mem_filter.mp hrecord
  rw [← hid]
  -- The Event came from the other side, or it was delivered there.
  by_cases horigin : record.identity.originUid = cluster.endpoint side.other
  · refine (htrue.foreign record.identity hidentity ?_).2
    rw [horigin]
    exact h.other_ne side
  · have htest := List.find?_eq_none.mp hnone record hjournal
    simp only [hshared, hidle, Bool.true_and, Bool.false_and, Bool.not_false, Bool.and_true,
      Bool.and_eq_true, Bool.not_eq_true', decide_eq_true_eq, not_and, not_not] at htest
    have hdelivered : state.hasDelivered record.identity = true := by
      by_contra hundelivered
      exact horigin (htest (by simpa using hundelivered))
    rw [LinkSyncState.hasDelivered, decide_eq_true_eq] at hdelivered
    exact hstate.delivered record.identity hdelivered

end Guarantees

end AppTraverse
