import AppTraverse.Chat.JoinMoves
import AppTraverse.Reference.ChatReplicas

/-!
# Chat sessions over byte strings

A platform that writes control messages as bytes and uids in lower case, and the
pieces that concrete sessions are put together from.
-/

namespace AppTraverse

open Foundations

/-- An ASCII character in lower case. -/
def lowerAscii (c : UInt8) : UInt8 := if 65 ≤ c ∧ c ≤ 90 then c + 32 else c

/-- The text of a uid in lower case. -/
def formatUidText (text : Bytes) : Option Bytes :=
  if isUidText (text.map lowerAscii) then some (text.map lowerAscii) else none

/-- The values of a control message, one after another. -/
def bootstrapCodec : Codec BootstrapFields :=
  (Codec.uint8.pair (objIdCodec.pair (objIdCodec.pair bytesCodec))).map
    (fun fields => (fields.kind, fields.attemptId, fields.roomId, fields.rejectionReason))
    (fun spelled => ⟨spelled.1, spelled.2.1, spelled.2.2.1, spelled.2.2.2⟩) fun _ => rfl

/-- The platform of the chat example. -/
def chatPlatform : ChatPlatform where
  aether := chatAether
  formatUid := formatUidText
  save := bootstrapCodec.encode
  load bytes := (bootstrapCodec.decode bytes).bind fun read =>
    if read.2.isEmpty then some read.1 else none
  roomIds := idsFrom 9000

/-- The text of a uid whose digits are all the same. -/
def uidText (digit : UInt8) : Bytes :=
  (List.range 36).map fun i => if isDashPosition i then 45 else digit

def hostUid : Bytes := uidText 49
def clientUid : Bytes := uidText 50

/-- The surroundings of the event at a time, with sixty-four ids of its own. -/
def sessionEnv (first : Nat) (bound : Bool) : SessionEnv where
  command := { clockUs := 1000, ids := idsFrom first }
  eventIds := idsFrom (first + 100)
  now := first
  step := { receiverEnv bound with ids := idsFrom (first + 200) }

/-- The bytes of a control message. -/
def controlBytes (msg : ChatBootstrapMessage) : Bytes :=
  bootstrapCodec.encode ⟨msg.kind.raw, msg.attemptId, msg.roomId, msg.rejectionReason⟩

theorem lowerAscii_idem (c : UInt8) : lowerAscii (lowerAscii c) = lowerAscii c := by
  by_cases hupper : 65 ≤ c ∧ c ≤ 90
  · rw [lowerAscii, lowerAscii, if_pos hupper]
    apply if_neg
    simp only [UInt8.le_iff_toNat_le, UInt8.toNat_add, UInt8.reduceToNat] at *
    omega
  · rw [lowerAscii, lowerAscii, if_neg hupper, if_neg hupper]

theorem formatUidText_stable {text formatted : Bytes} (h : formatUidText text = some formatted) :
    isUidText formatted = true ∧ formatUidText formatted = some formatted := by
  unfold formatUidText at h
  split at h
  case isFalse => cases h
  case isTrue hshape =>
    cases h
    refine ⟨hshape, ?_⟩
    have hlower : (text.map lowerAscii).map lowerAscii = text.map lowerAscii := by
      rw [List.map_map]
      exact List.map_congr_left fun c _ => lowerAscii_idem c
    rw [formatUidText, hlower]
    exact if_pos hshape

/-- The room of the host and the client, as the host shares it. -/
def invitedRoom : List ChatObject :=
  [linkObject 12 hostUid, linkObject 13 clientUid,
    eventObject 14 (addShareOf 12), eventObject 15 (addShareOf 13),
    roomObject 11 0 [] [] [] [],
    roomObject 10 11 [share 14 12, share 15 13] [] [record 14 1 {}, record 15 2 {}] []]

section Scripts

/-- The text of a uid that was formatted once stays the same. -/
theorem chatPlatform_formatsUids : FormatsUids chatPlatform where
  shape _ _ h := (formatUidText_stable h).1
  stable _ _ h := (formatUidText_stable h).2

theorem isValid_idsFrom {first : Nat} (hfirst : 0 < first) (hbound : first + 64 ≤ 4294967296)
    (n : Nat) : (idsFrom first n).isValid = true := by
  rw [ObjId.isValid, decide_eq_true_eq]
  intro hempty
  have hzero := congrArg (fun id : ObjId => id.id.toNat) hempty
  simp only [idsFrom, ObjId.empty, UInt32.toNat_ofNat', UInt32.toNat_zero] at hzero
  omega

theorem idsFrom_injective {first m n : Nat} (hm : m < 64) (hn : n < 64)
    (h : idsFrom first m = idsFrom first n) : m = n := by
  have hvalue := congrArg (fun id : ObjId => id.id.toNat) h
  simp only [idsFrom, UInt32.toNat_ofNat'] at hvalue
  omega

/-- The ids of a surrounding name nothing in a session yet. -/
def namesNothing (session : ChatSession) (first : Nat) : Bool :=
  (List.range 64).all fun k =>
    (session.world.live.entries.lookup ⟨UInt32.ofNat (first + k)⟩).isNone &&
      (session.world.live.rooms.lookup ⟨UInt32.ofNat (first + k)⟩).isNone

theorem idsFresh_of_namesNothing {session : ChatSession} {first : Nat} {bound : Bool}
    (hfirst : 0 < first) (hbound : first + 200 ≤ 4294967296)
    (h : namesNothing session first = true) :
    SessionIdsFresh session (sessionEnv first bound) := by
  have hnames := List.all_eq_true.mp h
  constructor
  · exact isValid_idsFrom hfirst (by omega)
  · intro m hm n hn
    unfold maxDrawnIds at hm hn
    exact idsFrom_injective (by omega) (by omega)
  · apply forall_idsFrom (fun id => session.world.live.entries.lookup id = none)
    intro k hk
    have hnone := hnames k (List.mem_range.mpr hk)
    rw [Bool.and_eq_true] at hnone
    exact Option.isNone_iff_eq_none.mp hnone.1
  · apply forall_idsFrom (fun id => session.world.live.rooms.lookup id = none)
    intro k hk
    have hnone := hnames k (List.mem_range.mpr hk)
    rw [Bool.and_eq_true] at hnone
    exact Option.isNone_iff_eq_none.mp hnone.2
  · exact isValid_idsFrom (by omega) (by omega)

/-- There are ids from a number on. -/
def isInRange (first : Nat) : Bool := decide (0 < first ∧ first + 200 ≤ 4294967296)

/-- An action of a script, with the surroundings it takes its ids from. -/
structure ScriptedAction where
  first : Nat
  action : SessionAction
  inRange : isInRange first = true
  allowed : ∀ session, SessionIdsFresh session (sessionEnv first true) →
    SessionActionAllowed session action

/-- Every action of a script takes ids that name nothing yet. -/
def followsScript (session : ChatSession) : List ScriptedAction → Bool
  | [] => true
  | scripted :: rest =>
      namesNothing session scripted.first &&
        (sessionStep chatPlatform session scripted.action).all fun next =>
          followsScript next rest

/-- A script starts with a replica that has its uid, a network, and the client's role. -/
def clientStarts : List ScriptedAction :=
  [⟨10000, .handle (.uid (sessionEnv 10000 true) clientUid), rfl, fun _ h => h⟩,
    ⟨20000, .handle (.ready (sessionEnv 20000 true)), rfl, fun _ h => h⟩,
    ⟨30000, .handle (.command (sessionEnv 30000 true) (.configureDemoRole .client)),
      rfl, fun _ h => ⟨h, fun _ _ _ hsame => by cases hsame⟩⟩]

/-- A host starts, with its uid, a network and the host's role. -/
def hostStarts : List ScriptedAction :=
  [⟨10000, .handle (.uid (sessionEnv 10000 true) hostUid), rfl, fun _ h => h⟩,
    ⟨20000, .handle (.ready (sessionEnv 20000 true)), rfl, fun _ h => h⟩,
    ⟨30000, .handle (.command (sessionEnv 30000 true) (.configureDemoRole .host)),
      rfl, fun _ h => ⟨h, fun _ _ _ hsame => by cases hsame⟩⟩]

/-- A host uid is typed in. -/
def hostTyped (first : Nat) (text : Bytes) (hrange : isInRange first = true) :
    ScriptedAction :=
  ⟨first, .handle (.command (sessionEnv first true) (.setHostUidInput text)), hrange,
    fun _ h => ⟨h, fun _ _ _ hsame => by cases hsame⟩⟩

/-- The user asks to join. -/
def joinAsked (first : Nat) (hrange : isInRange first = true) :
    ScriptedAction :=
  ⟨first, .handle (.joinHost (sessionEnv first true)), hrange, fun _ h => h⟩

/-- A control message arrives. -/
def controlArrived (first : Nat) (source : Bytes) (msg : ChatBootstrapMessage)
    (hrange : isInRange first = true) : ScriptedAction :=
  ⟨first, .handle (.control (sessionEnv first true) source (controlBytes msg)), hrange,
    fun _ h => h⟩

/-- The first snapshot of a room arrives. -/
def roomArrived (first : Nat) (source : Bytes) (frame : NodeStateFrame)
    (hrange : isInRange first = true) : ScriptedAction :=
  ⟨first, .handle (.frame (sessionEnv first true) source (encodeNodeStateFrame frame)), hrange,
    fun _ h => h⟩

theorem everyStep_of_followsScript {session : ChatSession} {script : List ScriptedAction}
    (h : followsScript session script = true) :
    EveryStep (sessionStep chatPlatform) SessionActionAllowed session
      (script.map ScriptedAction.action) := by
  induction script generalizing session with
  | nil => trivial
  | cons scripted rest ih =>
      rw [followsScript, Bool.and_eq_true] at h
      have hrange := of_decide_eq_true scripted.inRange
      refine ⟨scripted.allowed session (idsFresh_of_namesNothing hrange.1 hrange.2 h.1), ?_⟩
      intro next hstep
      rw [hstep] at h
      exact ih h.2

end Scripts

end AppTraverse
