import AppTraverse.Runtime.TopologyRuns
import AppTraverse.Storage.SavedNode

/-!
# What a SharedNode reaches along a run

In the Domain of a sender an id names one object: the SharedNode, its base snapshot, a
Link, or an Event.  A run that gives every new Event an id of its own, and shares only
Links of the Domain, keeps it so, and everything the SharedNode reaches is there.
-/

namespace AppTraverse

open Foundations

variable {α ε : Type}

/-- The reference is to the Link that the Domain has under its id. -/
structure Ref.IsLinkOf (links : ObjId → Option Link) (ref : Ref Link) : Prop
    extends ref.IsResolved where
  obj_eq : ref.obj = links ref.id

/-- The id of the Event object that an action commits. -/
def NodeAction.eventId : NodeAction ε → Option ObjId
  | .operate _ _ (.addShare _ _ eventId) => some eventId
  | .operate _ _ (.removeShare _ eventId) => some eventId
  | .operate _ _ (.setShareAccess _ _ eventId) => some eventId
  | .operate _ _ (.commit event) => some event.id
  | .operate _ _ (.commitShared event _ _) => some event.id
  | _ => none

/-- The id names neither a Link of the Domain, nor the SharedNode, nor its base. -/
structure IsEventId (links : ObjId → Option Link) (node : SharedNode α ε) (id : ObjId) :
    Prop where
  link : links id = none
  root : id ≠ node.objId
  base : id ≠ node.base.id

/-- What a step in the Domain of a sender may be. -/
structure SenderAllowed (links : ObjId → Option Link) (history : TopologyHistory α ε)
    (action : NodeAction ε) : Prop where
  topology : TopologyAllowed history action
  eventId : ∀ id ∈ action.eventId, IsEventId links history.node id ∧
    id ∉ history.node.journal.map fun record => record.event.id
  link : ∀ ids nowUs link access eventId,
    action = .operate ids nowUs (.addShare link access eventId) → link.IsLinkOf links

/-- Every object that the SharedNode reaches is there, under an id of its own. -/
structure NamesObjects (links : ObjId → Option Link) (node : SharedNode α ε) : Prop where
  root : node.objId.isValid = true ∧ links node.objId = none
  base : node.base.IsResolved ∧ links node.base.id = none
  baseOther : node.base.id ≠ node.objId
  baseLinks : ∀ snapshot, node.base.obj = some snapshot →
    ∀ share ∈ snapshot.shares, share.link.IsLinkOf links
  events : ∀ record ∈ node.journal,
    record.event.IsResolved ∧ IsEventId links node record.event.id
  eventLinks : ∀ record ∈ node.journal, ∀ link access,
    record.event.obj = some (.addShare link access) → link.IsLinkOf links
  distinct : (node.journal.map fun record => record.event.id).Nodup

variable {app : AppClass α ε} {links : ObjId → Option Link}

/-- A replay shares the Links that were shared, and those that its records share. -/
theorem links_of_openShares {P : Ref Link → Prop} {shares : List Share}
    {records : List (EventRecord (SharedNodeEvent ε))}
    (hshares : ∀ share ∈ shares, P share.link)
    (hevents : ∀ record ∈ records, ∀ link access,
      record.event.obj = some (.addShare link access) → P link) :
    ∀ share ∈ openShares shares records, P share.link := by
  induction records generalizing shares with
  | nil => exact hshares
  | cons record rest ih =>
      refine ih ?_ fun other hother => hevents other (List.mem_cons_of_mem _ hother)
      cases hobj : record.event.obj with
      | none =>
          simp only [hobj]
          exact hshares
      | some event =>
          simp only [hobj]
          intro share hshare
          cases event with
          | addShare link access =>
              rcases List.mem_append.mp hshare with hold | hnew
              · exact hshares share hold
              · rw [List.mem_singleton.mp hnew]
                exact hevents record List.mem_cons_self link access hobj
          | removeShare shareId => exact hshares share (List.mem_of_mem_eraseIdx hshare)
          | changeShareAccess shareId access =>
              obtain ⟨position, hposition⟩ := List.mem_iff_getElem?.mp hshare
              change (shares.modify _ _)[position]? = _ at hposition
              rw [List.getElem?_modify, Option.map_eq_map, Option.map_eq_some_iff] at hposition
              obtain ⟨old, hold, hshare⟩ := hposition
              have hlink : share.link = old.link := by
                rw [← hshare]
                split <;> rfl
              rw [hlink]
              exact hshares old (List.mem_of_getElem? hold)
          | app event => exact hshares share hshare

namespace NamesObjects

variable {node next : SharedNode α ε}

/-- Without a new Event, and with a base that was replayed from what there was, the
objects stay named. -/
theorem of_sublist (h : NamesObjects links node) (hobjId : next.objId = node.objId)
    (hbaseId : next.base.id = node.base.id) (hbase : next.base.isLoaded = true)
    (hjournal : next.journal.Sublist node.journal)
    (hbaseLinks : ∀ snapshot, next.base.obj = some snapshot →
      ∀ share ∈ snapshot.shares, share.link.IsLinkOf links) : NamesObjects links next where
  root := hobjId ▸ h.root
  base := ⟨⟨by rw [Ref.isValid, hbaseId]; exact h.base.1.valid, hbase⟩, hbaseId ▸ h.base.2⟩
  baseOther := by
    rw [hobjId, hbaseId]
    exact h.baseOther
  baseLinks := hbaseLinks
  events record hrecord := by
    obtain ⟨hevent, hid⟩ := h.events record (hjournal.subset hrecord)
    exact ⟨hevent, hid.link, hobjId ▸ hid.root, hbaseId ▸ hid.base⟩
  eventLinks record hrecord := h.eventLinks record (hjournal.subset hrecord)
  distinct := h.distinct.sublist (hjournal.map _)

/-- A step that leaves the base and the journal as they are. -/
theorem of_same (h : NamesObjects links node) (hobjId : next.objId = node.objId)
    (hbase : next.base = node.base) (hjournal : next.journal = node.journal) :
    NamesObjects links next := by
  refine h.of_sublist hobjId (by rw [hbase]) (hbase ▸ h.base.1.loaded)
    (hjournal ▸ List.Sublist.refl _) ?_
  rw [hbase]
  exact h.baseLinks

/-- A new record of an Event with an id of its own. -/
theorem of_inserted {ids : Nat → ObjId} {record : EventRecord (SharedNodeEvent ε)}
    {nowUs : UInt64} (h : NamesObjects links node)
    (hinserted : RecordInserted (app.nodeClass ids) node record nowUs next)
    (hid : IsEventId links node record.event.id)
    (hnew : record.event.id ∉ node.journal.map fun record => record.event.id)
    (hlink : ∀ link access, record.event.obj = some (.addShare link access) →
      link.IsLinkOf links) : NamesObjects links next where
  root := hinserted.objId ▸ h.root
  base := hinserted.base ▸ h.base
  baseOther := by
    rw [hinserted.base, hinserted.objId]
    exact h.baseOther
  baseLinks := hinserted.base ▸ h.baseLinks
  events other hother := by
    rcases hinserted.mem_journal.mp hother with rfl | hold
    · rw [stamped_event]
      exact ⟨⟨hinserted.eventValid, hinserted.eventLoaded⟩, hid.link,
        hinserted.objId ▸ hid.root, hinserted.base ▸ hid.base⟩
    · obtain ⟨hevent, hold⟩ := h.events other hold
      exact ⟨hevent, hold.link, hinserted.objId ▸ hold.root, hinserted.base ▸ hold.base⟩
  eventLinks other hother link access hadd := by
    rcases hinserted.mem_journal.mp hother with rfl | hold
    · rw [stamped_event] at hadd
      exact hlink link access hadd
    · exact h.eventLinks other hold link access hadd
  distinct := by
    have hperm := (lowerBoundInsert_perm eventRecordOrderLess (record.stamped nowUs)
      node.journal).map fun record => record.event.id
    rw [hinserted.journal, insertedJournal, hperm.nodup_iff, List.map_cons, List.nodup_cons,
      stamped_event]
    exact ⟨hnew, h.distinct⟩

/-- The Links of the open Shares are Links of the Domain. -/
theorem shareLinks {history : TopologyHistory α ε} (h : NamesObjects links history.node)
    (htopology : TopologyInvariant app history) :
    ∀ share ∈ history.node.fields.shares, share.link.IsLinkOf links := by
  obtain ⟨snapshot, hbase, hreplay⟩ := htopology.base
  rw [show history.node.fields.shares = openShares snapshot.shares history.node.journal from
    shares_of_sharedReplay hreplay]
  exact links_of_openShares (h.baseLinks snapshot hbase) h.eventLinks

end NamesObjects

section Steps

variable {history : TopologyHistory α ε} {next : SharedNode α ε}

/-- A committed Event has the id of its action, and if it opens a relationship the action
does. -/
theorem namesObjects_of_inserted {ids : Nat → ObjId} {nowUs : UInt64}
    {record : EventRecord (SharedNodeEvent ε)} {action : NodeAction ε}
    (h : NamesObjects links history.node) (hallowed : SenderAllowed links history action)
    (hinserted : RecordInserted (app.nodeClass ids) history.node record nowUs next)
    (hid : action.eventId = some record.event.id)
    (hlink : ∀ link access, record.event.obj = some (.addShare link access) →
      ∃ ids nowUs eventId, action = .operate ids nowUs (.addShare link access eventId)) :
    NamesObjects links next := by
  obtain ⟨hfresh, hnew⟩ := hallowed.eventId record.event.id hid
  refine h.of_inserted hinserted hfresh hnew fun link access hadd => ?_
  obtain ⟨ids, nowUs, eventId, rfl⟩ := hlink link access hadd
  exact hallowed.link ids nowUs link access eventId rfl

theorem namesObjects_of_compacted {ids : Nat → ObjId} {collapse : Nat}
    (h : NamesObjects links history.node) (htopology : TopologyInvariant app history)
    (hcompacted : JournalCompacted (app.nodeClass ids) history.node next collapse) :
    NamesObjects links next := by
  cases hcompacted with
  | everything nothingLeft result =>
      subst result
      refine h.of_sublist rfl rfl rfl (List.nil_sublist _) ?_
      intro snapshot hsnapshot
      obtain rfl := Option.some.inj hsnapshot
      exact h.shareLinks htopology
  | folded snapshot before after loaded prefixRun pc retainedRun rc result =>
      subst result
      refine h.of_sublist rfl rfl rfl (List.drop_sublist _ _) ?_
      intro folded hfolded
      obtain rfl := Option.some.inj hfolded
      have hshares := shares_of_sharedReplay (sharedReplay_of_applyRecords prefixRun pc)
      rw [show ((app.nodeClass ids).saveBase before.fields).shares = _ from hshares]
      exact links_of_openShares (h.baseLinks snapshot loaded) fun record hrecord =>
        h.eventLinks record (List.mem_of_mem_take hrecord)

/-- Every allowed step keeps the objects named. -/
theorem namesObjects_step {action : NodeAction ε} (h : NamesObjects links history.node)
    (htopology : TopologyInvariant app history) (hallowed : SenderAllowed links history action)
    (hstep : nodeStep app history.node action = some next) : NamesObjects links next := by
  cases action with
  | progress index eventId event =>
      have hsame := sameShared_of_commitLinkSyncEvent (toOption_eq_some_iff.mp hstep)
      exact h.of_same hsame.objId hsame.base hsame.journal
  | operate ids nowUs operation =>
      have hrun := toOption_eq_some_iff.mp hstep
      have hcommands := hallowed.topology.commands ids nowUs operation rfl
      have hsame : (.ok history.node : Except Fault _) = .ok next →
          NamesObjects links next := by
        intro heq
        exact Except.ok.inj heq ▸ h
      cases operation with
      | addShare link access eventId =>
          simp only [NodeOperation.run, addShare, except_bind_eq_ok_iff] at hrun
          obtain ⟨-, -, hrun⟩ := hrun
          split at hrun
          case isTrue => exact hsame hrun
          case isFalse =>
            refine namesObjects_of_inserted h hallowed (recordInserted_of_commit hrun).2 rfl ?_
            intro link' access' hadd
            cases hadd
            exact ⟨_, _, _, rfl⟩
      | removeShare linkId eventId =>
          simp only [NodeOperation.run, removeShare, except_bind_eq_ok_iff] at hrun
          obtain ⟨-, -, hrun⟩ := hrun
          split at hrun
          case h_1 => exact hsame hrun
          case h_2 =>
            exact namesObjects_of_inserted h hallowed (recordInserted_of_commit hrun).2 rfl
              fun _ _ hadd => by cases hadd
      | setShareAccess linkId access eventId =>
          simp only [NodeOperation.run, setShareAccess, except_bind_eq_ok_iff] at hrun
          obtain ⟨-, -, hrun⟩ := hrun
          split at hrun
          case h_1 => cases hrun
          case h_2 =>
            split at hrun
            case isTrue => exact hsame hrun
            case isFalse =>
              exact namesObjects_of_inserted h hallowed (recordInserted_of_commit hrun).2 rfl
                fun _ _ hadd => by cases hadd
      | commit event =>
          obtain ⟨value, hvalue⟩ := hcommands
          refine namesObjects_of_inserted h hallowed (recordInserted_of_commit hrun).2 rfl ?_
          intro link access hadd
          cases hvalue.symm.trans hadd
      | commitShared event identity order =>
          obtain ⟨value, hvalue⟩ := hcommands
          refine namesObjects_of_inserted h hallowed (recordInserted_of_commitShared hrun).2.2 rfl
            ?_
          intro link access hadd
          cases hvalue.symm.trans hadd
      | replayFromBase =>
          obtain ⟨snapshot, applied, -, -, -, hnext⟩ := replayFromBase_keeps hrun
          subst hnext
          exact h.of_same rfl rfl rfl
      | compactJournal =>
          rcases compactJournal_cases hrun with ⟨-, hnext⟩ | hcompacted
          · exact hnext ▸ h
          · exact namesObjects_of_compacted h htopology hcompacted
      | setJournalRetentionPolicy policy =>
          cases hrun
          exact h.of_same rfl rfl rfl
      | setJournalCompactionBlocked blocked =>
          cases hrun
          exact h.of_same rfl rfl rfl

/-- What holds of a SharedNode in the Domain of its sender: its fields follow from its base
and its journal, and everything it refers to can be saved. -/
structure SenderInvariant (app : AppClass α ε) (links : ObjId → Option Link)
    (history : TopologyHistory α ε) : Prop where
  topology : TopologyInvariant app history
  names : NamesObjects links history.node
  committed : ∀ record ∈ history.node.journal, IsCommitted record
  drawnValid : ∀ id ∈ history.drawn, id.isValid = true

theorem senderInvariant_new {start : SharedNode α ε} (hstart : IsNewNode app start)
    (hroot : start.objId.isValid = true ∧ links start.objId = none)
    (hbase : links start.base.id = none) : SenderInvariant app links ⟨start, [], []⟩ := by
  have htopology := topologyInvariant_new hstart
  obtain ⟨ids, objId, classId, baseId, fields, hvalid, hother, hshares, -, rfl⟩ := hstart
  refine ⟨htopology, ⟨hroot, ⟨⟨hvalid, rfl⟩, hbase⟩, hother, ?_, nofun, nofun, List.nodup_nil⟩,
    nofun, nofun⟩
  intro snapshot hsnapshot
  obtain rfl := Option.some.inj hsnapshot
  show ∀ share ∈ fields.shares, _
  simp [hshares]

theorem senderInvariant_step {action : NodeAction ε} {next : TopologyHistory α ε}
    (h : SenderInvariant app links history) (hallowed : SenderAllowed links history action)
    (hstep : topologyStep app history action = some next) :
    SenderInvariant app links next := by
  have htopology := topologyInvariant_step h.topology hallowed.topology hstep
  obtain ⟨node, hnode, rfl⟩ := Option.map_eq_some_iff.mp hstep
  refine ⟨htopology, namesObjects_step h.names h.topology hallowed hnode,
    isCommitted_step h.committed hnode, ?_⟩
  intro id hid
  rcases List.mem_append.mp hid with hold | hnew
  · exact h.drawnValid id hold
  · exact (hallowed.topology.fresh id (Option.mem_toList.mp hnew)).1

/-- The invariant holds along every run of a new SharedNode in the Domain of its sender. -/
theorem senderInvariant_run {start : SharedNode α ε} (hstart : IsNewNode app start)
    (hroot : start.objId.isValid = true ∧ links start.objId = none)
    (hbase : links start.base.id = none) {actions : List (NodeAction ε)}
    {reached : TopologyHistory α ε}
    (hallowed : EveryStep (topologyStep app) (SenderAllowed links) ⟨start, [], []⟩ actions)
    (hrun : runActions (topologyStep app) ⟨start, [], []⟩ actions = some reached) :
    SenderInvariant app links reached :=
  runActions_invariant (SenderInvariant app links)
    (fun _ _ _ h hassumed hstep => senderInvariant_step h hassumed hstep)
    (senderInvariant_new hstart hroot hbase) hallowed hrun

end Steps

section Objects

/-- The objects of a sender's Domain that the SharedNode may reach, by id. -/
def objectAt (aether : Aether α ε) (app : AppClass α ε) (links : ObjId → Option Link)
    (node : SharedNode α ε) (id : ObjId) : Option (StoredObject α ε) :=
  if id = node.objId then
    some (rootObject .networkShared node)
  else if id = node.base.id then
    node.base.obj.map fun snapshot =>
      { classId := node.classId
        body := .sharedNode (storedSharedState snapshot.toSharedState)
          (storedLocalPtrs .networkShared snapshot.linkSyncStates) }
  else
    match links id with
    | some link =>
        some { classId := link.classId
               body := .link link.endpointUid link.heartbeatIntervalMs }
    | none =>
        (node.journal.find? fun record => decide (record.event.id = id)).bind fun record =>
          record.event.obj.map fun event =>
            { classId := aether.classIdOfEvent app event
              body := .event (storedEvent event) }

variable {aether : Aether α ε} {node : SharedNode α ε}

theorem objectAt_of_link (h : NamesObjects links node) {link : Ref Link}
    (hlink : link.IsLinkOf links) :
    ∀ entry ∈ (linkObjects link : List (ObjId × StoredObject α ε)),
      objectAt aether app links node entry.1 = some entry.2 := by
  obtain ⟨value, hvalue⟩ := Ref.isLoaded_iff.mp hlink.loaded
  have hlinks : links link.id = some value := by rw [← hlink.obj_eq, hvalue]
  intro entry hentry
  rw [linkObjects, hvalue, List.mem_singleton] at hentry
  subst hentry
  have hroot : link.id ≠ node.objId := by
    intro hid
    rw [hid, h.root.2] at hlinks
    cases hlinks
  have hbase : link.id ≠ node.base.id := by
    intro hid
    rw [hid, h.base.2] at hlinks
    cases hlinks
  simp only [objectAt, if_neg hroot, if_neg hbase, hlinks]

theorem objectAt_of_event (h : NamesObjects links node)
    {record : EventRecord (SharedNodeEvent ε)} (hrecord : record ∈ node.journal) :
    ∀ entry ∈ eventObjects aether app record.event,
      objectAt aether app links node entry.1 = some entry.2 := by
  obtain ⟨hevent, hid⟩ := h.events record hrecord
  obtain ⟨value, hvalue⟩ := Ref.isLoaded_iff.mp hevent.loaded
  have hfind : (node.journal.find? fun other => decide (other.event.id = record.event.id)) =
      some record := by
    cases hfound : node.journal.find? fun other => decide (other.event.id = record.event.id) with
    | none =>
        have hnone := List.find?_eq_none.mp hfound record hrecord
        simp at hnone
    | some other =>
        have hsame : other.event.id = record.event.id := by simpa using List.find?_some hfound
        rw [List.inj_on_of_nodup_map h.distinct (List.mem_of_find?_eq_some hfound) hrecord hsame]
  intro entry hentry
  rw [eventObjects, hvalue] at hentry
  rcases List.mem_cons.mp hentry with rfl | hlink
  · simp only [objectAt, if_neg hid.root, if_neg hid.base, hid.link, hfind, Option.bind_some,
      hvalue, Option.map_some]
  · cases value with
    | addShare link access =>
        exact objectAt_of_link h (h.eventLinks record hrecord link access hvalue) entry hlink
    | removeShare shareId => cases hlink
    | changeShareAccess shareId access => cases hlink
    | app event => cases hlink

/-- Whatever the SharedNode reaches is the object of its id. -/
theorem objectAt_of_reachable {history : TopologyHistory α ε}
    (h : NamesObjects links history.node) (htopology : TopologyInvariant app history) :
    ∀ entry ∈ reachableObjects aether app .networkShared history.node,
      objectAt aether app links history.node entry.1 = some entry.2 := by
  have hshares : ∀ shares : List Share, (∀ share ∈ shares, share.link.IsLinkOf links) →
      ∀ entry ∈ (shareObjects shares : List (ObjId × StoredObject α ε)),
        objectAt aether app links history.node entry.1 = some entry.2 := by
    intro shares hlinks entry hentry
    obtain ⟨share, hshare, hlink⟩ := List.mem_flatMap.mp hentry
    exact objectAt_of_link h (hlinks share hshare) entry hlink
  intro entry hentry
  simp only [reachableObjects, List.append_nil, List.mem_cons, List.mem_append] at hentry
  rcases hentry with rfl | ((hbase | hevent) | hshare)
  · exact if_pos rfl
  · obtain ⟨snapshot, hsnapshot, -⟩ := htopology.base
    rw [baseObjects, hsnapshot] at hbase
    rcases List.mem_cons.mp hbase with rfl | hshare
    · simp only [objectAt, if_neg h.baseOther, if_true, hsnapshot, Option.map_some]
    · exact hshares _ (h.baseLinks snapshot hsnapshot) entry hshare
  · obtain ⟨record, hrecord, hevent⟩ := List.mem_flatMap.mp hevent
    exact objectAt_of_event h hrecord entry hevent
  · exact hshares _ (h.shareLinks htopology) entry hshare

/-- In the Domain of a sender one id names one object. -/
theorem objectsAgree_of_namesObjects {history : TopologyHistory α ε}
    (h : NamesObjects links history.node) (htopology : TopologyInvariant app history) :
    ObjectsAgree (reachableObjects aether app .networkShared history.node) := by
  intro entry hentry other hother hid
  have hfirst := objectAt_of_reachable h htopology entry hentry
  rw [hid, objectAt_of_reachable h htopology other hother] at hfirst
  exact (Option.some.inj hfirst).symm

/-- Everything the SharedNode refers to is there. -/
theorem nodeIsResolved_of_namesObjects {history : TopologyHistory α ε}
    (h : NamesObjects links history.node) (htopology : TopologyInvariant app history) :
    NodeIsResolved history.node where
  objId := h.root.1
  base := h.base.1
  baseShares snapshot hsnapshot share hshare :=
    (h.baseLinks snapshot hsnapshot share hshare).toIsResolved
  events record hrecord := (h.events record hrecord).1
  eventLinks record hrecord _ hevent link access hadd :=
    (h.eventLinks record hrecord link access (hadd ▸ hevent)).toIsResolved
  shares share hshare := (h.shareLinks htopology share hshare).toIsResolved

end Objects

end AppTraverse
