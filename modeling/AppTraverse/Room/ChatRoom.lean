import AppTraverse.Sharing.SharedNode

/-!
# ChatRoom

The SharedNode of the chat example: its application fields are the message
timeline, and its own Event adds a message.

A class id is the CRC32 of the qualified class name.
-/

namespace AppTraverse

/-- `ChatRoom::kClassId`. -/
def chatRoomClassId : ClassId := 0x05b24e44

/-- `MessageAddedEvent::kClassId`. -/
def messageAddedEventClassId : ClassId := 0x57f9a90d

/-- `MessageValue`; the author is `id.originUid`. -/
structure MessageValue where
  id : SharedEventId
  timestampUs : UInt64
  text : Bytes
  deriving DecidableEq, Repr

/-- `MessageAddedEvent`. -/
structure MessageAddedEvent where
  message : MessageValue
  deriving DecidableEq, Repr

/-- `ChatRoom::messages`. -/
abbrev Messages := List MessageValue

/-- `ChatRoom::CanApply(MessageAddedEvent)`. -/
def canApplyMessage (event : MessageAddedEvent) : Bool :=
  !(event.message.id.originUid.isEmpty || decide (event.message.id.originSequence = 0) ||
    decide (event.message.timestampUs = 0) || event.message.text.isEmpty)

/-- `ChatRoom` over its base class. -/
def chatRoom : AppClass Messages MessageAddedEvent where
  canApply _ event := canApplyMessage event
  apply messages event := messages ++ [event.message]
  matchesSharedMetadata event identity order :=
    decide (event.message.id = identity) &&
      decide (event.message.timestampUs = order.timestampUs)
  eventClassId _ := messageAddedEventClassId
  eventTargetClassId _ := chatRoomClassId

end AppTraverse
