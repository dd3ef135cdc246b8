import Mathlib.Data.Fin.Basic
import Mathlib.Data.List.Basic
import Mathlib.Data.List.FinRange
import Mathlib.Logic.Function.Basic
import AppTraverse.Journal.Identity
import AppTraverse.Foundations.TransitionSystem

/-!
# The publication channel, one atomic access at a time

`PublicationChannel<N>` hands buffers from one producer to one consumer through two atomic
words: `published_`, the buffer that waits, and `in_ui_`, the buffer that the consumer
holds.  A step of the system is one load, store or compare-exchange of one of them, or one
access of the producer to the bytes of its buffer.  The publications so far and the ones
that were taken are recorded beside the channel.
-/

namespace AppTraverse

open Foundations

section Channel

variable {n : Nat}

/-- Where the producer is in `has_unread_published`, `AcquireProducer`, the writes to the
buffer and `PublishProducer`. -/
inductive ProducerPhase (n : Nat) where
  | idle
  | foundNoUnread
  | loadedPublished (published : Option (Fin n))
  | chose (index : Fin n)
  | filling (index : Fin n)
  deriving DecidableEq, Repr

/-- Where the consumer is in `TakePublished` and `ReleaseConsumer`. -/
inductive ConsumerPhase (n : Nat) where
  | idle
  | loadedPublished (index : Fin n)
  | markedInUi (index : Fin n)
  | givingUp
  | holding (index : Fin n)
  deriving DecidableEq, Repr

/-- `PublicationChannel`: `none` is the index `-1`.  `serials` says which publication a
buffer was last published as. -/
structure PublicationChannel (n : Nat) where
  published : Option (Fin n) := none
  inUi : Option (Fin n) := none
  buffers : Fin n → Bytes := fun _ => []
  producer : ProducerPhase n := .idle
  consumer : ConsumerPhase n := .idle
  serials : Fin n → Nat := fun _ => 0
  publications : List Bytes := []
  taken : List Nat := []
  assertionFailed : Bool := false

/-- The accesses of the two threads. -/
inductive ChannelAction where
  | hasUnreadPublished
  | acquireLoadPublished
  | acquireLoadInUi
  | acquireClear
  | write (bytes : Bytes)
  | publishProducer
  | takeLoadPublished
  | takeMarkInUi
  | takeClearPublished
  | takeGiveUp
  | releaseConsumer
  deriving DecidableEq, Repr

namespace PublicationChannel

/-- The buffer that `AcquireProducer` returns after its two loads. -/
def freeBuffer (published inUi : Option (Fin n)) : Option (Fin n) :=
  (List.finRange n).find? fun index => decide (some index ≠ published) && decide (some index ≠ inUi)

/-- A step of the producer; it calls `AcquireProducer` only after `has_unread_published`
was false. -/
def producerStep (channel : PublicationChannel n) :
    ProducerPhase n → ChannelAction → Option (PublicationChannel n)
  | .idle, .hasUnreadPublished =>
      if channel.published.isSome then
        some channel
      else
        some { channel with producer := .foundNoUnread }
  | .foundNoUnread, .acquireLoadPublished =>
      some { channel with producer := .loadedPublished channel.published }
  | .loadedPublished published, .acquireLoadInUi =>
      match freeBuffer published channel.inUi with
      | none => some { channel with assertionFailed := true }
      | some index => some { channel with producer := .chose index }
  | .chose index, .acquireClear =>
      some { channel with
        buffers := Function.update channel.buffers index []
        producer := .filling index }
  | .filling index, .write bytes =>
      some { channel with
        buffers := Function.update channel.buffers index (channel.buffers index ++ bytes) }
  | .filling index, .publishProducer =>
      if channel.published = none then
        some { channel with
          published := some index
          producer := .idle
          serials := Function.update channel.serials index channel.publications.length
          publications := channel.publications ++ [channel.buffers index] }
      else
        some { channel with assertionFailed := true }
  | _, _ => none

/-- A step of the consumer: `TakePublished`, or its copy, and `ReleaseConsumer`. -/
def consumerStep (channel : PublicationChannel n) :
    ConsumerPhase n → ChannelAction → Option (PublicationChannel n)
  | .idle, .takeLoadPublished =>
      match channel.published with
      | none => some channel
      | some index => some { channel with consumer := .loadedPublished index }
  | .loadedPublished index, .takeMarkInUi =>
      if channel.inUi = none then
        some { channel with
          inUi := some index
          consumer := .markedInUi index }
      else
        some { channel with consumer := .idle }
  | .markedInUi index, .takeClearPublished =>
      if channel.published = some index then
        some { channel with
          published := none
          consumer := .holding index
          taken := channel.taken ++ [channel.serials index] }
      else
        some { channel with consumer := .givingUp }
  | .givingUp, .takeGiveUp =>
      some { channel with
        inUi := none
        consumer := .idle }
  | .holding _, .releaseConsumer =>
      some { channel with
        inUi := none
        consumer := .idle }
  | _, _ => none

/-- A step of either thread. -/
def step (channel : PublicationChannel n) (action : ChannelAction) :
    Option (PublicationChannel n) :=
  match action with
  | .hasUnreadPublished | .acquireLoadPublished | .acquireLoadInUi | .acquireClear
  | .write _ | .publishProducer => channel.producerStep channel.producer action
  | .takeLoadPublished | .takeMarkInUi | .takeClearPublished | .takeGiveUp
  | .releaseConsumer => channel.consumerStep channel.consumer action

end PublicationChannel

/-- The producer works on its own buffer, or has not chosen one. -/
def ProducerPhase.index : ProducerPhase n → Option (Fin n)
  | .chose index | .filling index => some index
  | _ => none

/-- The buffer that the consumer is taking or holds. -/
def ConsumerPhase.index : ConsumerPhase n → Option (Fin n)
  | .loadedPublished index | .markedInUi index | .holding index => some index
  | _ => none

/-- What the producer knows. -/
def PublicationChannel.ProducerKnows (channel : PublicationChannel n) : ProducerPhase n → Prop
  | .idle => True
  | .foundNoUnread => channel.published = none
  | .loadedPublished published => published = none ∧ channel.published = none
  | .chose index | .filling index => channel.published = none ∧ channel.inUi ≠ some index

/-- What the consumer knows. -/
def PublicationChannel.ConsumerKnows (channel : PublicationChannel n) : ConsumerPhase n → Prop
  | .idle => channel.inUi = none
  | .loadedPublished index => channel.published = some index ∧ channel.inUi = none
  | .markedInUi index => channel.published = some index ∧ channel.inUi = some index
  | .givingUp => False
  | .holding index => channel.inUi = some index ∧
      channel.publications[channel.serials index]? = some (channel.buffers index) ∧
      channel.taken.getLast? = some (channel.serials index)

/-- The publication that waits is the last one, and all before it were taken. -/
def PublicationChannel.LastWaits (channel : PublicationChannel n) : Option (Fin n) → Prop
  | none => channel.taken = List.range channel.publications.length
  | some index => channel.taken = List.range (channel.serials index) ∧
      channel.publications.length = channel.serials index + 1 ∧
      channel.publications[channel.serials index]? = some (channel.buffers index)

/-- What holds between two accesses. -/
structure PublicationChannel.Orderly (channel : PublicationChannel n) : Prop where
  producer : channel.ProducerKnows channel.producer
  consumer : channel.ConsumerKnows channel.consumer
  lastWaits : channel.LastWaits channel.published
  noAssertion : channel.assertionFailed = false

variable {channel next : PublicationChannel n}

theorem orderly_new : ({} : PublicationChannel n).Orderly :=
  ⟨trivial, rfl, rfl, rfl⟩

/-- With at least two buffers there is one that the consumer does not hold. -/
theorem exists_freeBuffer (hn : 2 ≤ n) (inUi : Option (Fin n)) :
    ∃ index, PublicationChannel.freeBuffer none inUi = some index ∧ inUi ≠ some index := by
  have hfree : ∃ index : Fin n, some index ≠ inUi := by
    by_cases hzero : inUi = some ⟨0, by omega⟩
    · refine ⟨⟨1, by omega⟩, ?_⟩
      rw [hzero]
      simp
    · exact ⟨⟨0, by omega⟩, fun hsame => hzero hsame.symm⟩
  cases hfind : PublicationChannel.freeBuffer none inUi with
  | none =>
      obtain ⟨index, hindex⟩ := hfree
      have hnone := List.find?_eq_none.mp hfind index (List.mem_finRange index)
      simp [hindex] at hnone
  | some index =>
      have hchosen := List.find?_some hfind
      simp only [Bool.and_eq_true, decide_eq_true_eq] at hchosen
      exact ⟨index, rfl, fun hsame => hchosen.2 hsame.symm⟩

/-- The producer writes to a buffer that nobody else has. -/
theorem PublicationChannel.Orderly.update (h : channel.Orderly) {index : Fin n}
    (hpublished : channel.published = none) (hinUi : channel.inUi ≠ some index)
    (bytes : Bytes) (phase : ProducerPhase n) (hphase : phase = .filling index) :
    ({ channel with
      buffers := Function.update channel.buffers index bytes
      producer := phase } : PublicationChannel n).Orderly := by
  subst hphase
  refine ⟨⟨hpublished, hinUi⟩, ?_, ?_, h.noAssertion⟩
  · have hconsumer := h.consumer
    show PublicationChannel.ConsumerKnows _ channel.consumer
    cases hphase : channel.consumer with
    | idle => rwa [hphase] at hconsumer
    | loadedPublished other => rwa [hphase] at hconsumer
    | markedInUi other => rwa [hphase] at hconsumer
    | givingUp => rwa [hphase] at hconsumer
    | holding other =>
        rw [hphase] at hconsumer
        obtain ⟨hheld, hbytes, htaken⟩ := hconsumer
        have hother : other ≠ index := by
          rintro rfl
          exact hinUi hheld
        refine ⟨hheld, ?_, htaken⟩
        rw [hbytes]
        exact congrArg some (Function.update_of_ne hother _ _).symm
  · have hlast := h.lastWaits
    show PublicationChannel.LastWaits _ channel.published
    rw [hpublished] at hlast ⊢
    exact hlast

/-- The compare-exchange of `PublishProducer` finds the slot free. -/
theorem PublicationChannel.Orderly.publish (h : channel.Orderly) {index : Fin n}
    (hpublished : channel.published = none) (hinUi : channel.inUi ≠ some index) :
    ({ channel with
      published := some index
      producer := .idle
      serials := Function.update channel.serials index channel.publications.length
      publications := channel.publications ++ [channel.buffers index] } :
        PublicationChannel n).Orderly := by
  have hself : Function.update channel.serials index channel.publications.length index =
      channel.publications.length := Function.update_self _ _ _
  refine ⟨trivial, ?_, ?_, h.noAssertion⟩
  · have hconsumer := h.consumer
    show PublicationChannel.ConsumerKnows _ channel.consumer
    cases hphase : channel.consumer with
    | idle => rwa [hphase] at hconsumer
    | loadedPublished other =>
        rw [hphase] at hconsumer
        rw [hconsumer.1] at hpublished
        cases hpublished
    | markedInUi other =>
        rw [hphase] at hconsumer
        rw [hconsumer.1] at hpublished
        cases hpublished
    | givingUp => rwa [hphase] at hconsumer
    | holding other =>
        rw [hphase] at hconsumer
        obtain ⟨hheld, hbytes, htaken⟩ := hconsumer
        have hother : other ≠ index := by
          rintro rfl
          exact hinUi hheld
        have hserial : Function.update channel.serials index channel.publications.length
            other = channel.serials other := Function.update_of_ne hother _ _
        refine ⟨hheld, ?_, htaken.trans (congrArg some hserial.symm)⟩
        show (channel.publications ++ [channel.buffers index])[Function.update
          channel.serials index channel.publications.length other]? = _
        rw [hserial]
        obtain ⟨hlt, -⟩ := List.getElem?_eq_some_iff.mp hbytes
        rw [List.getElem?_append_left hlt]
        exact hbytes
  · have hlast := h.lastWaits
    rw [hpublished] at hlast
    refine ⟨hlast.trans (congrArg List.range hself.symm), ?_, ?_⟩
    · show (channel.publications ++ [channel.buffers index]).length =
        Function.update channel.serials index channel.publications.length index + 1
      rw [hself, List.length_append]
      rfl
    · show (channel.publications ++ [channel.buffers index])[Function.update
        channel.serials index channel.publications.length index]? = _
      rw [hself, List.getElem?_append_right (le_refl _), Nat.sub_self]
      rfl

theorem PublicationChannel.Orderly.producerStep (h : channel.Orderly) (hn : 2 ≤ n)
    {action : ChannelAction}
    (hstep : channel.producerStep channel.producer action = some next) : next.Orderly := by
  have hproducer := h.producer
  cases hphase : channel.producer with
  | idle =>
      rw [hphase] at hstep
      cases action with
      | hasUnreadPublished =>
          simp only [PublicationChannel.producerStep] at hstep
          split at hstep
          case isTrue =>
            cases hstep
            exact h
          case isFalse hnone =>
            cases hstep
            have hpublished : channel.published = none := by simpa using hnone
            exact ⟨hpublished, h.consumer, h.lastWaits, h.noAssertion⟩
      | _ => cases hstep
  | foundNoUnread =>
      rw [hphase] at hstep hproducer
      cases action with
      | acquireLoadPublished =>
          cases hstep
          exact ⟨⟨hproducer, hproducer⟩, h.consumer, h.lastWaits, h.noAssertion⟩
      | _ => cases hstep
  | loadedPublished published =>
      rw [hphase] at hstep hproducer
      obtain ⟨rfl, hpublished⟩ := hproducer
      cases action with
      | acquireLoadInUi =>
          obtain ⟨index, hindex, hfree⟩ := exists_freeBuffer hn channel.inUi
          simp only [PublicationChannel.producerStep, hindex] at hstep
          cases hstep
          exact ⟨⟨hpublished, hfree⟩, h.consumer, h.lastWaits, h.noAssertion⟩
      | _ => cases hstep
  | chose index =>
      rw [hphase] at hstep hproducer
      cases action with
      | acquireClear =>
          cases hstep
          exact h.update hproducer.1 hproducer.2 [] _ rfl
      | _ => cases hstep
  | filling index =>
      rw [hphase] at hstep hproducer
      obtain ⟨hpublished, hinUi⟩ := hproducer
      cases action with
      | write bytes =>
          cases hstep
          exact h.update hpublished hinUi _ _ hphase
      | publishProducer =>
          simp only [PublicationChannel.producerStep, hpublished, if_true] at hstep
          cases hstep
          exact h.publish hpublished hinUi
      | _ => cases hstep

theorem PublicationChannel.Orderly.consumerStep (h : channel.Orderly) {action : ChannelAction}
    (hstep : channel.consumerStep channel.consumer action = some next) : next.Orderly := by
  have hconsumer := h.consumer
  have hlast := h.lastWaits
  cases hphase : channel.consumer with
  | idle =>
      rw [hphase] at hstep hconsumer
      cases action with
      | takeLoadPublished =>
          simp only [PublicationChannel.consumerStep] at hstep
          split at hstep
          case h_1 =>
            cases hstep
            exact h
          case h_2 index hpublished =>
            cases hstep
            exact ⟨h.producer, ⟨hpublished, hconsumer⟩, h.lastWaits, h.noAssertion⟩
      | _ => cases hstep
  | loadedPublished index =>
      rw [hphase] at hstep hconsumer
      obtain ⟨hpublished, hinUi⟩ := hconsumer
      cases action with
      | takeMarkInUi =>
          simp only [PublicationChannel.consumerStep, hinUi, if_true] at hstep
          cases hstep
          refine ⟨?_, ⟨hpublished, rfl⟩, h.lastWaits, h.noAssertion⟩
          -- A producer that has chosen a buffer saw that nothing was published.
          have hproducer := h.producer
          show PublicationChannel.ProducerKnows _ channel.producer
          cases hproducerPhase : channel.producer with
          | idle => trivial
          | foundNoUnread => rwa [hproducerPhase] at hproducer
          | loadedPublished published => rwa [hproducerPhase] at hproducer
          | chose other =>
              rw [hproducerPhase] at hproducer
              rw [hproducer.1] at hpublished
              cases hpublished
          | filling other =>
              rw [hproducerPhase] at hproducer
              rw [hproducer.1] at hpublished
              cases hpublished
      | _ => cases hstep
  | markedInUi index =>
      rw [hphase] at hstep hconsumer
      obtain ⟨hpublished, hinUi⟩ := hconsumer
      rw [hpublished] at hlast
      obtain ⟨htaken, hlength, hbytes⟩ := hlast
      cases action with
      | takeClearPublished =>
          simp only [PublicationChannel.consumerStep, hpublished, if_true] at hstep
          cases hstep
          refine ⟨?_, ⟨hinUi, hbytes, List.getLast?_concat⟩, ?_, h.noAssertion⟩
          · have hproducer := h.producer
            show PublicationChannel.ProducerKnows _ channel.producer
            cases hproducerPhase : channel.producer with
            | idle => trivial
            | foundNoUnread => rfl
            | loadedPublished published =>
                rw [hproducerPhase] at hproducer
                exact ⟨hproducer.1, rfl⟩
            | chose other =>
                rw [hproducerPhase] at hproducer
                exact ⟨rfl, hproducer.2⟩
            | filling other =>
                rw [hproducerPhase] at hproducer
                exact ⟨rfl, hproducer.2⟩
          · show channel.taken ++ [channel.serials index] =
              List.range channel.publications.length
            rw [htaken, hlength, List.range_succ]
      | _ => cases hstep
  | givingUp =>
      rw [hphase] at hconsumer
      exact hconsumer.elim
  | holding index =>
      rw [hphase] at hstep
      cases action with
      | releaseConsumer =>
          cases hstep
          refine ⟨?_, rfl, h.lastWaits, h.noAssertion⟩
          have hproducer := h.producer
          show PublicationChannel.ProducerKnows _ channel.producer
          cases hproducerPhase : channel.producer with
          | idle => trivial
          | foundNoUnread => rwa [hproducerPhase] at hproducer
          | loadedPublished published => rwa [hproducerPhase] at hproducer
          | chose other =>
              rw [hproducerPhase] at hproducer
              exact ⟨hproducer.1, fun hnone => by cases hnone⟩
          | filling other =>
              rw [hproducerPhase] at hproducer
              exact ⟨hproducer.1, fun hnone => by cases hnone⟩
      | _ => cases hstep

theorem PublicationChannel.Orderly.step (h : channel.Orderly) (hn : 2 ≤ n)
    {action : ChannelAction} (hstep : channel.step action = some next) : next.Orderly := by
  cases action with
  | hasUnreadPublished => exact h.producerStep hn hstep
  | acquireLoadPublished => exact h.producerStep hn hstep
  | acquireLoadInUi => exact h.producerStep hn hstep
  | acquireClear => exact h.producerStep hn hstep
  | write bytes => exact h.producerStep hn hstep
  | publishProducer => exact h.producerStep hn hstep
  | takeLoadPublished => exact h.consumerStep hstep
  | takeMarkInUi => exact h.consumerStep hstep
  | takeClearPublished => exact h.consumerStep hstep
  | takeGiveUp => exact h.consumerStep hstep
  | releaseConsumer => exact h.consumerStep hstep

/-- What the two users of the channel rely on. -/
structure SafeHandover (channel : PublicationChannel n) : Prop where
  /-- The buffer of the producer is not published and not the one of the consumer. -/
  apart : ∀ index, channel.producer.index = some index →
    channel.published ≠ some index ∧ channel.inUi ≠ some index ∧
      channel.consumer.index ≠ some index
  /-- The consumer holds the bytes of the publication that it took last. -/
  bytes : ∀ index, channel.consumer = .holding index →
    ∃ serial, channel.taken.getLast? = some serial ∧
      channel.publications[serial]? = some (channel.buffers index)
  /-- Publications are taken in order, each once, and only the last one may wait. -/
  inOrder : channel.taken = List.range channel.taken.length ∧
    channel.publications.length =
      channel.taken.length + (if channel.published.isSome then 1 else 0)
  /-- A buffer was found, and the slot was free, whenever the producer needed it. -/
  noAssertion : channel.assertionFailed = false

theorem PublicationChannel.Orderly.safeHandover (h : channel.Orderly) :
    SafeHandover channel where
  apart := by
    intro index hindex
    have hproducer := h.producer
    have hconsumer := h.consumer
    obtain ⟨hpublished, hinUi⟩ : channel.published = none ∧ channel.inUi ≠ some index := by
      cases hphase : channel.producer with
      | idle => rw [hphase] at hindex; cases hindex
      | foundNoUnread => rw [hphase] at hindex; cases hindex
      | loadedPublished published => rw [hphase] at hindex; cases hindex
      | chose other =>
          rw [hphase] at hindex hproducer
          cases hindex
          exact hproducer
      | filling other =>
          rw [hphase] at hindex hproducer
          cases hindex
          exact hproducer
    refine ⟨by simp [hpublished], hinUi, ?_⟩
    intro hsame
    cases hphase : channel.consumer with
    | idle => rw [hphase] at hsame; cases hsame
    | givingUp => rw [hphase] at hsame; cases hsame
    | loadedPublished other =>
        rw [hphase] at hconsumer
        rw [hconsumer.1] at hpublished
        cases hpublished
    | markedInUi other =>
        rw [hphase] at hconsumer
        rw [hconsumer.1] at hpublished
        cases hpublished
    | holding other =>
        rw [hphase] at hsame hconsumer
        cases hsame
        exact hinUi hconsumer.1
  bytes := by
    intro index hindex
    have hconsumer := h.consumer
    rw [hindex] at hconsumer
    exact ⟨_, hconsumer.2.2, hconsumer.2.1⟩
  inOrder := by
    have hlast := h.lastWaits
    cases hpublished : channel.published with
    | none =>
        rw [hpublished] at hlast
        have htaken : channel.taken = List.range channel.publications.length := hlast
        rw [htaken, List.length_range]
        exact ⟨rfl, rfl⟩
    | some index =>
        rw [hpublished] at hlast
        obtain ⟨htaken, hlength, -⟩ := hlast
        rw [htaken, List.length_range, hlength]
        exact ⟨rfl, rfl⟩
  noAssertion := h.noAssertion

/-- Under every interleaving of the single accesses the channel of three buffers hands
over safely. -/
theorem publicationChannel_handsOverSafely {actions : List ChannelAction}
    {channel : PublicationChannel 3}
    (hrun : runActions PublicationChannel.step {} actions = some channel) :
    SafeHandover channel := by
  have horderly : channel.Orderly :=
    runActions_preserves _ (fun _ _ _ hstate hstep => hstate.step (by omega) hstep) orderly_new
      hrun
  exact horderly.safeHandover

/-- A publication is taken while the next one is being written. -/
def overlappingPublications : List ChannelAction :=
  [.hasUnreadPublished, .acquireLoadPublished, .acquireLoadInUi, .acquireClear, .write [1, 2],
    .publishProducer, .takeLoadPublished, .takeMarkInUi, .hasUnreadPublished,
    .takeClearPublished, .hasUnreadPublished, .acquireLoadPublished, .acquireLoadInUi,
    .acquireClear, .write [3]]

theorem overlappingPublications_handOverSafely : ∃ channel : PublicationChannel 3,
    runActions PublicationChannel.step {} overlappingPublications = some channel ∧
      channel.consumer = .holding 0 ∧ channel.producer = .filling 1 ∧
      channel.buffers 0 = [1, 2] ∧ SafeHandover channel := by
  have hrun : runActions PublicationChannel.step ({} : PublicationChannel 3)
      overlappingPublications = some _ := rfl
  exact ⟨_, hrun, rfl, rfl, rfl, publicationChannel_handsOverSafely hrun⟩

end Channel

end AppTraverse
