import AppTraverse.Journal.PlainNode

/-!
# The local Nodes of the chat example

`ChatWorkspace` is the root of what a replica persists, and a `ChatEntry` is its view of
one peer: both are plain Nodes that are never shared.  The room of an entry is the
`ChatRoom` of `ChatRoom.lean`.

Objects are referred to by id.  A `double` is kept as the integer its bits are, and the
equality of scroll anchors compares those.
-/

namespace AppTraverse

/-- `DemoRole`. -/
inductive DemoRole where
  | unconfigured
  | host
  | client
  deriving DecidableEq, Repr

/-- `ScrollAnchor`. -/
structure ScrollAnchor where
  followTail : Bool := true
  firstVisibleMessage : SharedEventId := {}
  offsetFromMessageTop : UInt64 := 0
  deriving DecidableEq, Repr

/-- `DesktopBounds`. -/
structure DesktopBounds where
  valid : Bool := false
  x : Int := 0
  y : Int := 0
  width : Int := 1000
  height : Int := 700
  maximized : Bool := false
  deriving DecidableEq, Repr

/-- The fields of `ChatEntry`. -/
structure ChatEntryFields where
  peerUid : Bytes
  displayName : Bytes
  peerLink : Ref Link := Ref.empty
  room : ObjId := ObjId.empty
  draft : Bytes := []
  scroll : ScrollAnchor := {}
  deriving DecidableEq, Repr

/-- The Events of `ChatEntry`. -/
inductive ChatEntryEvent where
  | chatBindingChanged (peerLink : Ref Link) (room : ObjId)
  | draftChanged (text : Bytes)
  | scrollChanged (scroll : ScrollAnchor)
  deriving DecidableEq, Repr

/-- `Link::EndpointUid` of a loaded Link. -/
def linkEndpointUid (link : Ref Link) : Bytes := (link.obj.map Link.endpointUid).getD []

/-- `ChatEntry::CanApply` and `ChatEntry::Apply`. -/
def chatEntry : PlainClass ChatEntryFields ChatEntryEvent where
  canApply fields
    | .chatBindingChanged peerLink room =>
        peerLink.isValid && room.isValid &&
          decide (linkEndpointUid peerLink = fields.peerUid)
    | _ => true
  apply fields
    | .chatBindingChanged peerLink room => { fields with peerLink := peerLink, room := room }
    | .draftChanged text => { fields with draft := text }
    | .scrollChanged scroll => { fields with scroll := scroll }

/-- The fields of `ChatWorkspace`. -/
structure ChatWorkspaceFields where
  demoRole : DemoRole := .unconfigured
  hostUidInput : Bytes := []
  localEndpointUid : Bytes := []
  nextMessageSequence : UInt64 := 1
  chats : List ObjId := []
  selectedChatId : ObjId := ObjId.empty
  desktopBounds : DesktopBounds := {}
  deriving DecidableEq, Repr

/-- The Events of `ChatWorkspace`. -/
inductive ChatWorkspaceEvent where
  | demoRoleConfigured (role : DemoRole)
  | hostUidInputChanged (text : Bytes)
  | localEndpointBound (endpointUid : Bytes)
  | messageSequenceReserved (reservedSequence : UInt64)
  | chatEntryAdded (entry : ObjId)
  | chatSelected (entryId : ObjId)
  | desktopBoundsChanged (bounds : DesktopBounds)
  deriving DecidableEq, Repr

/-- The greatest sequence number, which is never handed out. -/
def maxMessageSequence : UInt64 := 0xffffffffffffffff

/-- `ChatWorkspace::CanApply` and `ChatWorkspace::Apply`. -/
def chatWorkspace : PlainClass ChatWorkspaceFields ChatWorkspaceEvent where
  canApply fields
    | .demoRoleConfigured role =>
        (decide (role = .host) || decide (role = .client)) &&
          decide (fields.demoRole = .unconfigured)
    | .hostUidInputChanged text =>
        decide (fields.demoRole = .client) && decide (text.length ≤ 128)
    | .messageSequenceReserved reservedSequence =>
        decide (reservedSequence = fields.nextMessageSequence) &&
          decide (reservedSequence ≠ 0) && decide (reservedSequence ≠ maxMessageSequence)
    | .chatSelected entryId =>
        entryId.isValid && fields.chats.any fun entry => entry.isValid && decide (entry = entryId)
    | _ => true
  apply fields
    | .demoRoleConfigured role => { fields with demoRole := role }
    | .hostUidInputChanged text => { fields with hostUidInput := text }
    | .localEndpointBound endpointUid => { fields with localEndpointUid := endpointUid }
    | .messageSequenceReserved reservedSequence =>
        { fields with nextMessageSequence := reservedSequence + 1 }
    | .chatEntryAdded entry => { fields with chats := fields.chats ++ [entry] }
    | .chatSelected entryId => { fields with selectedChatId := entryId }
    | .desktopBoundsChanged bounds => { fields with desktopBounds := bounds }

/-- `ChatWorkspace::kClassId` and `ChatEntry::kClassId`. -/
def chatWorkspaceClassId : ClassId := 0xdea095da

@[inherit_doc chatWorkspaceClassId]
def chatEntryClassId : ClassId := 0x3d3a7f2a

/-- A `ChatWorkspace` in memory. -/
abbrev ChatWorkspace := Node ChatWorkspaceFields ChatWorkspaceFields ChatWorkspaceEvent

/-- A `ChatEntry` in memory. -/
abbrev ChatEntry := Node ChatEntryFields ChatEntryFields ChatEntryEvent

/-- A `ChatRoom` in memory. -/
abbrev ChatRoom := SharedNode Messages MessageAddedEvent

end AppTraverse
