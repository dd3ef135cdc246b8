import AppTraverse.Admission.Registration
import AppTraverse.Foundations.TransitionSystem
import AppTraverse.Sharing.NodeOperations

/-!
# Runs of one SharedNode

What happens to one SharedNode on its own replica: its application operates on it, and
synchronization commits on its local sync states.  An operation that fails ends the
run.
-/

namespace AppTraverse

open Foundations

variable {α ε : Type}

/-- One step of a SharedNode. -/
inductive NodeAction (ε : Type) where
  | operate (ids : Nat → ObjId) (nowUs : UInt64) (operation : NodeOperation ε)
  | progress (index : Nat) (eventId : ObjId) (event : LinkSyncEvent)

/-- The Node after a step. -/
def nodeStep (app : AppClass α ε) (node : SharedNode α ε) :
    NodeAction ε → Option (SharedNode α ε)
  | .operate ids nowUs operation => (operation.run app ids nowUs node).toOption
  | .progress index eventId event => (commitLinkSyncEvent node index eventId event).toOption

variable {app : AppClass α ε}

/-- A record that synchronization can read: its Event is there, and it has a place in
the order. -/
structure IsCommitted (record : EventRecord ε) : Prop where
  valid : record.event.isValid = true
  loaded : record.event.isLoaded = true
  timestamp : record.order.timestampUs ≠ 0

theorem isCommitted_of_recordInserted {σ β : Type} {cls : NodeClass σ β ε}
    {node inserted : Node σ β ε} {record : EventRecord ε} {nowUs : UInt64}
    (h : RecordInserted cls node record nowUs inserted)
    (hjournal : ∀ other ∈ node.journal, IsCommitted other) :
    ∀ other ∈ inserted.journal, IsCommitted other := by
  intro other hother
  rcases h.mem_journal.mp hother with rfl | hold
  · refine ⟨?_, ?_, ?_⟩
    · rw [stamped_event]
      exact h.eventValid
    · rw [stamped_event]
      exact h.eventLoaded
    · rw [stamped_order]
      exact h.timestamp
  · exact hjournal other hold

/-- Every step keeps the records of a journal committed. -/
theorem isCommitted_step {node next : SharedNode α ε} {action : NodeAction ε}
    (hjournal : ∀ record ∈ node.journal, IsCommitted record)
    (hstep : nodeStep app node action = some next) :
    ∀ record ∈ next.journal, IsCommitted record := by
  cases action with
  | progress index eventId event =>
      have hcommit := toOption_eq_some_iff.mp hstep
      rw [(sameShared_of_commitLinkSyncEvent hcommit).journal]
      exact hjournal
  | operate ids nowUs operation =>
      cases nodeOperated_of_run (toOption_eq_some_iff.mp hstep) with
      | nothing same =>
          rw [same]
          exact hjournal
      | configured policy blocked same =>
          rw [same]
          exact hjournal
      | committed event inserted => exact isCommitted_of_recordInserted inserted hjournal
      | committedShared event identity order origin inserted =>
          exact isCommitted_of_recordInserted inserted hjournal
      | rebuilt snapshot applied loaded run complete result =>
          rw [result]
          exact hjournal
      | compacted collapse compaction =>
          cases compaction with
          | everything nothingLeft result =>
              rw [result]
              simp
          | folded snapshot before after loaded prefixRun pc retainedRun rc result =>
              rw [result]
              exact fun record hrecord => hjournal record (List.mem_of_mem_drop hrecord)

/-- The records of a journal that was built by operations are committed. -/
theorem isCommitted_run {start node : SharedNode α ε} {actions : List (NodeAction ε)}
    (hstart : start.journal = []) (hrun : runActions (nodeStep app) start actions = some node) :
    ∀ record ∈ node.journal, IsCommitted record := by
  refine runActions_preserves (fun node => ∀ record ∈ node.journal, IsCommitted record)
    (fun _ _ _ hjournal hstep => isCommitted_step hjournal hstep) ?_ hrun
  rw [hstart]
  simp

end AppTraverse
