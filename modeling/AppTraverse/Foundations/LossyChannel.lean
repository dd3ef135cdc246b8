import Mathlib.Data.List.Perm.Basic
import Mathlib.Data.List.Sublists

/-!
# A channel that loses and repeats

A first-in-first-out queue between a sender and a receiver.  Its head can be handed
over, lost, or queued a second time at the tail.  The lists beside the queue are what
happened so far, so that it can be said what such a channel keeps: nothing arrives
that was not accepted, every message is accounted for, and as long as nothing was
repeated the receiver sees what was accepted in its order.
-/

namespace AppTraverse
namespace Foundations

/-- A channel of messages `μ` and what happened to them. -/
structure Channel (μ : Type) where
  waiting : List μ := []
  accepted : List μ := []
  delivered : List μ := []
  dropped : List μ := []
  repeated : List μ := []

namespace Channel

variable {μ : Type}

/-- A message joins the queue. -/
def accept (channel : Channel μ) (message : μ) : Channel μ :=
  { channel with
    waiting := channel.waiting ++ [message]
    accepted := channel.accepted ++ [message] }

/-- The head is handed over. -/
def deliver (channel : Channel μ) : Channel μ :=
  { channel with
    waiting := channel.waiting.tail
    delivered := channel.delivered ++ channel.waiting.head?.toList }

/-- The head is lost. -/
def drop (channel : Channel μ) : Channel μ :=
  { channel with
    waiting := channel.waiting.tail
    dropped := channel.dropped ++ channel.waiting.head?.toList }

/-- The head is queued a second time. -/
def duplicate (channel : Channel μ) : Channel μ :=
  { channel with
    waiting := channel.waiting ++ channel.waiting.head?.toList
    repeated := channel.repeated ++ channel.waiting.head?.toList }

/-- What a channel keeps. -/
structure Sound (channel : Channel μ) : Prop where
  conserved : (channel.delivered ++ channel.dropped ++ channel.waiting).Perm
    (channel.accepted ++ channel.repeated)
  ordered : channel.repeated = [] →
    (channel.delivered ++ channel.waiting).Sublist channel.accepted
  complete : channel.repeated = [] → channel.dropped = [] →
    channel.delivered ++ channel.waiting = channel.accepted
  known : ∀ message ∈ channel.repeated, message ∈ channel.accepted

variable {channel : Channel μ}

@[simp] theorem deliver_of_empty (h : channel.waiting = []) : channel.deliver = channel := by
  cases channel
  simp_all [deliver]

@[simp] theorem drop_of_empty (h : channel.waiting = []) : channel.drop = channel := by
  cases channel
  simp_all [drop]

@[simp] theorem duplicate_of_empty (h : channel.waiting = []) : channel.duplicate = channel := by
  cases channel
  simp_all [duplicate]

theorem sound_empty : Sound ({} : Channel μ) where
  conserved := List.Perm.refl _
  ordered := fun _ => List.Sublist.refl _
  complete := fun _ _ => rfl
  known := by simp

/-- Whatever waits or was handed over has been accepted. -/
theorem Sound.mem_accepted (h : channel.Sound) {message : μ}
    (hmem : message ∈ channel.delivered ∨ message ∈ channel.waiting) :
    message ∈ channel.accepted := by
  have hall : message ∈ channel.accepted ++ channel.repeated := by
    rw [← h.conserved.mem_iff]
    rcases hmem with hdelivered | hwaiting
    · simp [hdelivered]
    · simp [hwaiting]
  rcases List.mem_append.mp hall with haccepted | hrepeated
  · exact haccepted
  · exact h.known message hrepeated

theorem Sound.accept (h : channel.Sound) (message : μ) : (channel.accept message).Sound where
  conserved := by
    have hperm : (channel.delivered ++ channel.dropped ++ channel.waiting ++ [message]).Perm
        (channel.accepted ++ channel.repeated ++ [message]) := h.conserved.append_right _
    have hmoved : (channel.accepted ++ channel.repeated ++ [message]).Perm
        (channel.accepted ++ [message] ++ channel.repeated) := by
      rw [List.append_assoc, List.append_assoc]
      exact List.perm_append_comm.append_left _
    simpa [Channel.accept] using hperm.trans hmoved
  ordered := by
    intro hnone
    have hsub := (h.ordered hnone).append (List.Sublist.refl [message])
    simpa [Channel.accept] using hsub
  complete := by
    intro hnone hkept
    simp [Channel.accept, ← h.complete hnone hkept]
  known := by
    intro other hother
    exact List.mem_append_left _ (h.known other hother)

theorem Sound.deliver (h : channel.Sound) : channel.deliver.Sound := by
  cases hwaiting : channel.waiting with
  | nil => simpa [hwaiting] using h
  | cons head rest =>
      have hconserved := h.conserved
      have hordered := h.ordered
      have hcomplete := h.complete
      rw [hwaiting] at hconserved hordered hcomplete
      refine ⟨?_, ?_, ?_, h.known⟩
      · -- The head moves from the queue to what was handed over.
        have hmoved : (channel.delivered ++ [head] ++ channel.dropped ++ rest).Perm
            (channel.delivered ++ channel.dropped ++ head :: rest) := by
          simp only [List.append_assoc, List.singleton_append]
          exact (List.perm_middle.symm).append_left _
        simpa [Channel.deliver, hwaiting] using hmoved.trans hconserved
      · simpa [Channel.deliver, hwaiting] using hordered
      · simpa [Channel.deliver, hwaiting] using hcomplete

theorem Sound.drop (h : channel.Sound) : channel.drop.Sound := by
  cases hwaiting : channel.waiting with
  | nil => simpa [hwaiting] using h
  | cons head rest =>
      have hconserved := h.conserved
      have hordered := h.ordered
      rw [hwaiting] at hconserved hordered
      refine ⟨?_, ?_, ?_, h.known⟩
      · simpa [Channel.drop, hwaiting] using hconserved
      · intro hnone
        have htail : (channel.delivered ++ rest).Sublist (channel.delivered ++ head :: rest) :=
          (List.Sublist.refl _).append (List.sublist_cons_self head rest)
        simpa [Channel.drop, hwaiting] using htail.trans (hordered hnone)
      · intro _ hkept
        simp [Channel.drop, hwaiting] at hkept

theorem Sound.duplicate (h : channel.Sound) : channel.duplicate.Sound := by
  cases hwaiting : channel.waiting with
  | nil => simpa [hwaiting] using h
  | cons head rest =>
      have hhead : head ∈ channel.accepted :=
        h.mem_accepted (Or.inr (by rw [hwaiting]; exact List.mem_cons_self))
      refine ⟨?_, ?_, ?_, ?_⟩
      · have hperm := h.conserved.append_right [head]
        simpa [Channel.duplicate, hwaiting] using hperm
      · intro hnone
        simp [Channel.duplicate, hwaiting] at hnone
      · intro hnone
        simp [Channel.duplicate, hwaiting] at hnone
      · intro message hmem
        simp only [Channel.duplicate, hwaiting, List.head?_cons, Option.toList_some,
          List.mem_append, List.mem_singleton] at hmem
        rcases hmem with hold | rfl
        · exact h.known message hold
        · exact hhead

end Channel

end Foundations
end AppTraverse
