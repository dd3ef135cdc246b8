import Mathlib.Data.Set.Insert

/-!
# An outbox that survives restarts

A sender freezes the bytes of a packet under a fresh key, makes them durable, and
sends them, again and again, until the packet is completed.  `live` is what the
sender holds in memory, `durable` what it would find after a restart, and `frozen`
everything that was ever frozen.

A step may drop packets from both, in any way, as long as what is live stays
durable: that covers saving, restarting, and forgetting a relationship.  `Sound` is
what every step keeps.  It makes retries exact: all bytes sent under one key are
equal, they were durable when they were sent, and a completed key is never sent
again.
-/

namespace AppTraverse
namespace Foundations

/-- An outbox of packets with keys `κ` and bytes `β`. -/
structure Outbox (κ β : Type) where
  live : Set (κ × β) := ∅
  durable : Set (κ × β) := ∅
  frozen : Set (κ × β) := ∅
  sent : Set (κ × β) := ∅
  completed : Set κ := ∅

namespace Outbox

variable {κ β : Type} {box box' : Outbox κ β}

/-- What a step leaves alone when it neither freezes, sends nor completes. -/
structure SameRecords (box box' : Outbox κ β) : Prop where
  frozen : box'.frozen = box.frozen
  sent : box'.sent = box.sent
  completed : box'.completed = box.completed

/-- One step of an outbox, and the packet it sends. -/
inductive Step (box box' : Outbox κ β) : Option (κ × β) → Prop where
  | quiet (saved : box'.live ⊆ box'.durable) (kept : box'.durable ⊆ box.durable)
      (same : SameRecords box box') : Step box box' none
  | freeze (packet : κ × β) (fresh : ∀ bytes, (packet.1, bytes) ∉ box.frozen)
      (saved : box'.live ⊆ box'.durable) (stored : packet ∈ box'.durable)
      (kept : box'.durable ⊆ insert packet box.durable)
      (frozen : box'.frozen = insert packet box.frozen)
      (sent : box'.sent = insert packet box.sent)
      (completed : box'.completed = box.completed) : Step box box' (some packet)
  | resend (packet : κ × β) (held : packet ∈ box.live) (live : box'.live = box.live)
      (durable : box'.durable = box.durable) (frozen : box'.frozen = box.frozen)
      (sent : box'.sent = insert packet box.sent)
      (completed : box'.completed = box.completed) : Step box box' (some packet)
  | complete (key : κ) (held : ∃ bytes, (key, bytes) ∈ box.live)
      (saved : box'.live ⊆ box'.durable) (kept : box'.durable ⊆ box.durable)
      (dropped : ∀ bytes, (key, bytes) ∉ box'.durable)
      (frozen : box'.frozen = box.frozen) (sent : box'.sent = box.sent)
      (completed : box'.completed = insert key box.completed) : Step box box' none

/-- What every step of an outbox keeps. -/
structure Sound (box : Outbox κ β) : Prop where
  saved : box.live ⊆ box.durable
  wasFrozen : box.durable ⊆ box.frozen
  sentFrozen : box.sent ⊆ box.frozen
  functional : ∀ key bytes bytes', (key, bytes) ∈ box.frozen → (key, bytes') ∈ box.frozen →
    bytes = bytes'
  completedFrozen : ∀ key ∈ box.completed, ∃ bytes, (key, bytes) ∈ box.frozen
  completedGone : ∀ key ∈ box.completed, ∀ bytes, (key, bytes) ∉ box.durable

theorem sound_empty : Sound ({} : Outbox κ β) where
  saved := Set.empty_subset _
  wasFrozen := Set.empty_subset _
  sentFrozen := Set.empty_subset _
  functional := by simp
  completedFrozen := by simp
  completedGone := by simp

/-- Every step keeps an outbox sound. -/
theorem Sound.step (h : Sound box) {sending : Option (κ × β)} (hstep : Step box box' sending) :
    Sound box' := by
  cases hstep with
  | quiet saved kept same =>
      refine ⟨saved, ?_, ?_, ?_, ?_, ?_⟩
      · rw [same.frozen]
        exact kept.trans h.wasFrozen
      · rw [same.sent, same.frozen]
        exact h.sentFrozen
      · rw [same.frozen]
        exact h.functional
      · rw [same.completed, same.frozen]
        exact h.completedFrozen
      · rw [same.completed]
        exact fun key hkey bytes hmem => h.completedGone key hkey bytes (kept hmem)
  | freeze packet fresh saved stored kept frozen sent completed =>
      refine ⟨saved, ?_, ?_, ?_, ?_, ?_⟩
      · rw [frozen]
        exact kept.trans (Set.insert_subset_insert h.wasFrozen)
      · rw [sent, frozen]
        exact Set.insert_subset_insert h.sentFrozen
      · rw [frozen]
        rintro key bytes bytes' (hnew | hold) (hnew' | hold')
        · exact congrArg Prod.snd (hnew.trans hnew'.symm)
        · exact absurd hold' (by rw [show key = packet.1 from congrArg Prod.fst hnew]
                                 exact fresh bytes')
        · exact absurd hold (by rw [show key = packet.1 from congrArg Prod.fst hnew']
                                exact fresh bytes)
        · exact h.functional key bytes bytes' hold hold'
      · rw [completed, frozen]
        intro key hkey
        obtain ⟨bytes, hbytes⟩ := h.completedFrozen key hkey
        exact ⟨bytes, Set.mem_insert_of_mem _ hbytes⟩
      · rw [completed]
        intro key hkey bytes hmem
        rcases kept hmem with hnew | hold
        · -- A fresh key has not been frozen, so it has not been completed.
          obtain ⟨bytes', hbytes'⟩ := h.completedFrozen key hkey
          rw [show key = packet.1 from congrArg Prod.fst hnew] at hbytes'
          exact fresh bytes' hbytes'
        · exact h.completedGone key hkey bytes hold
  | resend packet held live durable frozen sent completed =>
      refine ⟨?_, ?_, ?_, ?_, ?_, ?_⟩
      · rw [live, durable]
        exact h.saved
      · rw [durable, frozen]
        exact h.wasFrozen
      · rw [sent, frozen]
        exact Set.insert_subset (h.wasFrozen (h.saved held)) h.sentFrozen
      · rw [frozen]
        exact h.functional
      · rw [completed, frozen]
        exact h.completedFrozen
      · rw [completed, durable]
        exact h.completedGone
  | complete key held saved kept dropped frozen sent completed =>
      refine ⟨saved, ?_, ?_, ?_, ?_, ?_⟩
      · rw [frozen]
        exact kept.trans h.wasFrozen
      · rw [sent, frozen]
        exact h.sentFrozen
      · rw [frozen]
        exact h.functional
      · rw [completed, frozen]
        rintro other (rfl | hold)
        · obtain ⟨bytes, hbytes⟩ := held
          exact ⟨bytes, h.wasFrozen (h.saved hbytes)⟩
        · exact h.completedFrozen other hold
      · rw [completed]
        rintro other (rfl | hold) bytes hmem
        · exact dropped bytes hmem
        · exact h.completedGone other hold bytes (kept hmem)

/-- What a step sends is durable by then. -/
theorem Sound.durable_of_send (h : Sound box) {packet : κ × β}
    (hstep : Step box box' (some packet)) : packet ∈ box'.durable := by
  cases hstep with
  | freeze _ fresh saved stored kept frozen sent completed => exact stored
  | resend _ held live durable frozen sent completed =>
      rw [durable]
      exact h.saved held

/-- What a step sends has not been completed. -/
theorem Sound.not_completed_of_send (h : Sound box) {packet : κ × β}
    (hstep : Step box box' (some packet)) : packet.1 ∉ box.completed := by
  intro hcompleted
  cases hstep with
  | freeze _ fresh saved stored kept frozen sent completed =>
      obtain ⟨bytes, hbytes⟩ := h.completedFrozen _ hcompleted
      exact fresh bytes hbytes
  | resend _ held live durable frozen sent completed =>
      exact h.completedGone _ hcompleted packet.2 (h.saved held)

/-- Two packets sent under one key are equal. -/
theorem Sound.sent_eq (h : Sound box) {key : κ} {bytes bytes' : β}
    (hsent : (key, bytes) ∈ box.sent) (hsent' : (key, bytes') ∈ box.sent) :
    bytes = bytes' :=
  h.functional key bytes bytes' (h.sentFrozen hsent) (h.sentFrozen hsent')

end Outbox

end Foundations
end AppTraverse
