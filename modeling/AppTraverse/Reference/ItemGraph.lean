import AppTraverse.Reference.ChatReplicas
import AppTraverse.Storage.ClosedGraphCopy

/-!
# An Event that is saved in two versions

The class of the Event saves its reference to an item in version 0 and in version 1, as
classes do that keep writing an old layout.  Importing the Event remaps the reference
twice.
-/

namespace AppTraverse

open Foundations

def itemClassId : ClassId := 0x21
def addItemEventClassId : ClassId := 0x22

/-- Items are Nodes. -/
def itemTree : ClassTree :=
  .ofTable objClassId
    [(objClassId, []),
      (nodeClassId, [objClassId]),
      (itemClassId, [nodeClassId, objClassId]),
      (eventClassId, [objClassId]),
      (addItemEventClassId, [eventClassId, objClassId])]
    (by decide)

def itemAether : Aether Messages MessageAddedEvent :=
  byteAether itemTree chatClassIds [itemClassId, addItemEventClassId] messageCodec.list
    messageAddedEventCodec

/-- The reference of an Event to its item. -/
def itemField : LinkField := .sharedPtr 0

/-- An Event writes its item in both versions; an item has no references. -/
def loadItemGraph (layers : Layers) : Option LinkedObject := do
  let top ← layers.head?
  let version ← top.2.head?
  if top.1 = addItemEventClassId then
    let (item, _) ← objIdCodec.decode version.2
    some ⟨addItemEventClassId,
      [⟨addItemEventClassId, 0, [], [(itemField, itemClassId)]⟩,
        ⟨addItemEventClassId, 1, [], [(itemField, itemClassId)]⟩], fun _ => item⟩
  else
    some ⟨itemClassId, [⟨itemClassId, 0, version.2, []⟩], fun _ => .empty⟩

/-- Event 1 adds item 2. -/
def itemGraph : RamDomainStorage :=
  let items : RamDomainStorage := (∅ : RamDomainStorage).insert (⟨2⟩ : ObjId)
    (some [(itemClassId, [(0, [7])])])
  items.insert (⟨1⟩ : ObjId) (some [(addItemEventClassId,
    [(0, objIdCodec.encode ⟨2⟩), (1, objIdCodec.encode ⟨2⟩)])])

def emptyReceiver : Receiver := ⟨fun _ => none, fun _ => []⟩

/-- The objects of `itemGraph`. -/
def itemObjects : List (ObjId × LinkedObject) :=
  [(⟨1⟩, ⟨addItemEventClassId,
      [⟨addItemEventClassId, 0, [], [(itemField, itemClassId)]⟩,
        ⟨addItemEventClassId, 1, [], [(itemField, itemClassId)]⟩], fun _ => ⟨2⟩⟩),
    (⟨2⟩, ⟨itemClassId, [⟨itemClassId, 0, [7], []⟩], fun _ => .empty⟩)]

theorem payloadObjects_itemGraph : payloadObjects loadItemGraph itemGraph = some itemObjects :=
  rfl

theorem acceptsClosedGraph_itemGraph :
    acceptsClosedGraph itemAether loadItemGraph itemGraph ⟨1⟩ = true := by
  decide

end AppTraverse
