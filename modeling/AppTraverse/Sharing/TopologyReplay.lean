import AppTraverse.Foundations.FirstMatch
import AppTraverse.Journal.NodeReplay
import AppTraverse.Sharing.SharedNode

/-!
# Replaying topology Events

A replay of topology Events moves two lists: the open Shares and the local sync
states.  Both start with entries that the replay did not make (the base snapshot
and the entries the object was loaded with), and a `RemoveShareEvent` takes the
first entry of its id, which is one of those as long as any is left.

So what a replay leaves of the initial entries of an id is a subtraction: their
number minus the number of removals.  `ReplayTrace` is the invariant that says
this, and how the entries the replay made itself relate to it.
-/

namespace AppTraverse

open Foundations

variable {α ε : Type}

/-- How many relationships of that identity are open. -/
def shareCount (shares : List Share) (id : ObjId) : Nat :=
  shares.countP fun share => decide (share.shareId = id)

/-- The relationship a loaded sync state belongs to. -/
def syncKey (entry : Ref LinkSyncState) : Option ObjId :=
  entry.obj.map LinkSyncState.shareId

/-- How many loaded sync states belong to that relationship. -/
def syncCount (entries : List (Ref LinkSyncState)) (id : ObjId) : Nat :=
  entries.countP fun entry => decide (syncKey entry = some id)

/-- The record holds a `RemoveShareEvent` of that relationship. -/
def isRemoveOf (id : ObjId) (record : EventRecord (SharedNodeEvent ε)) : Bool :=
  match record.event.obj with
  | some (.removeShare shareId) => decide (shareId = id)
  | _ => false

/-- How many records close that relationship. -/
def removeCount (records : List (EventRecord (SharedNodeEvent ε))) (id : ObjId) : Nat :=
  records.countP (isRemoveOf id)

/-- The open Shares after one Event. -/
def stepShares (shares : List Share) (eventId : ObjId) : SharedNodeEvent ε → List Share
  | .addShare link access => shares ++ [⟨eventId, link, access⟩]
  | .removeShare shareId => shares.eraseIdx (findShareIndexForShare shares shareId)
  | .changeShareAccess shareId access =>
      shares.modify (findShareIndexForShare shares shareId) fun share =>
        { share with access := access }
  | .app _ => shares

/-- The open Shares after a list of records. -/
def openShares (shares : List Share) (records : List (EventRecord (SharedNodeEvent ε))) :
    List Share :=
  records.foldl (fun shares record =>
    match record.event.obj with
    | none => shares
    | some event => stepShares shares record.event.id event) shares

/-- The application fields after a list of records. -/
def appAfter (app : AppClass α ε) (fields : α)
    (records : List (EventRecord (SharedNodeEvent ε))) : α :=
  records.foldl (fun fields record =>
    match record.event.obj with
    | some (.app event) => app.apply fields event
    | _ => fields) fields

/-- The entries in front of the first one that cannot be loaded. -/
def loadedPrefix (entries : List (Ref LinkSyncState)) : List (Ref LinkSyncState) :=
  entries.takeWhile Ref.isLoaded

/-- The first entry that cannot be loaded, and what follows it. -/
def unloadedSuffix (entries : List (Ref LinkSyncState)) : List (Ref LinkSyncState) :=
  entries.dropWhile Ref.isLoaded

theorem shareCount_eq_count (shares : List Share) (id : ObjId) :
    shareCount shares id = (shares.map Share.shareId).count id := by
  rw [shareCount, List.count, List.countP_map]
  refine List.countP_congr fun share _ => ?_
  simp

theorem syncCount_eq_count (entries : List (Ref LinkSyncState)) (id : ObjId) :
    syncCount entries id = (entries.map syncKey).count (some id) := by
  rw [syncCount, List.count, List.countP_map]
  refine List.countP_congr fun entry _ => ?_
  simp

theorem shareCount_append (shares shares' : List Share) (id : ObjId) :
    shareCount (shares ++ shares') id = shareCount shares id + shareCount shares' id :=
  List.countP_append

theorem shareCount_cons (share : Share) (shares : List Share) (id : ObjId) :
    shareCount (share :: shares) id =
      shareCount shares id + if share.shareId = id then 1 else 0 := by
  simp [shareCount, List.countP_cons]

theorem syncCount_append (entries entries' : List (Ref LinkSyncState)) (id : ObjId) :
    syncCount (entries ++ entries') id = syncCount entries id + syncCount entries' id :=
  List.countP_append

theorem syncCount_cons (entry : Ref LinkSyncState) (entries : List (Ref LinkSyncState))
    (id : ObjId) :
    syncCount (entry :: entries) id =
      syncCount entries id + if syncKey entry = some id then 1 else 0 := by
  simp [syncCount, List.countP_cons]

theorem removeCount_append (records records' : List (EventRecord (SharedNodeEvent ε)))
    (id : ObjId) :
    removeCount (records ++ records') id =
      removeCount records id + removeCount records' id :=
  List.countP_append

theorem removeCount_singleton (record : EventRecord (SharedNodeEvent ε)) (id : ObjId) :
    removeCount [record] id = if isRemoveOf id record then 1 else 0 := by
  simp [removeCount, List.countP_cons]

theorem openShares_append (shares : List Share)
    (records records' : List (EventRecord (SharedNodeEvent ε))) :
    openShares shares (records ++ records') =
      openShares (openShares shares records) records' :=
  List.foldl_append

theorem openShares_snoc {shares : List Share}
    {records : List (EventRecord (SharedNodeEvent ε))}
    {record : EventRecord (SharedNodeEvent ε)} {event : SharedNodeEvent ε}
    (hevent : record.event.obj = some event) :
    openShares shares (records ++ [record]) =
      stepShares (openShares shares records) record.event.id event := by
  rw [openShares_append]
  simp [openShares, hevent]

theorem appAfter_snoc (app : AppClass α ε) (fields : α)
    (records : List (EventRecord (SharedNodeEvent ε)))
    (record : EventRecord (SharedNodeEvent ε)) :
    appAfter app fields (records ++ [record]) =
      match record.event.obj with
      | some (.app event) => app.apply (appAfter app fields records) event
      | _ => appAfter app fields records := by
  simp only [appAfter, List.foldl_append, List.foldl_cons, List.foldl_nil]

section Lookups

/-- The relationship is open exactly when the search finds it. -/
theorem findShareIndexForShare_lt_iff {shares : List Share} {id : ObjId} :
    findShareIndexForShare shares id < shares.length ↔ 0 < shareCount shares id :=
  findIdx_lt_length_iff_countP_pos

theorem findShareIndexForShare_eq_length_iff {shares : List Share} {id : ObjId} :
    findShareIndexForShare shares id = shares.length ↔ shareCount shares id = 0 :=
  findIdx_eq_length_iff

/-- Closing a relationship that is open removes one Share of its id. -/
theorem shareCount_eraseIdx {shares : List Share} {id : ObjId}
    (hopen : 0 < shareCount shares id) (other : ObjId) :
    shareCount (shares.eraseIdx (findShareIndexForShare shares id)) other =
      if id = other then shareCount shares other - 1 else shareCount shares other := by
  obtain ⟨before, share, after, hsplit, hmatch, -, hindex⟩ :=
    exists_split_of_findIdx_lt (findShareIndexForShare_lt_iff.mpr hopen)
  have hid : share.shareId = id := by simpa using hmatch
  rw [findShareIndexForShare, hindex, hsplit, eraseIdx_split, shareCount_append,
    shareCount_append, shareCount_cons, hid]
  split <;> omega

/-- Changing the access of a relationship keeps every identity. -/
theorem shareCount_modify_access (shares : List Share) (index : Nat) (access : UInt8)
    (id : ObjId) :
    shareCount (shares.modify index fun share => { share with access := access }) id =
      shareCount shares id := by
  induction shares generalizing index with
  | nil => cases index <;> rfl
  | cons head tail ih =>
      cases index with
      | zero => simp [shareCount_cons]
      | succ index => simp [shareCount_cons, ih index]

/-- Entries that are not of a relationship are passed over. -/
theorem findLinkSyncIndexForShare_append {front : List (Ref LinkSyncState)}
    (back : List (Ref LinkSyncState)) {id : ObjId} (hfront : ∀ entry ∈ front, entry.isValid = true ∧ entry.isLoaded = true)
    (habsent : syncCount front id = 0) :
    findLinkSyncIndexForShare (front ++ back) id =
      (front.length + ·) <$> findLinkSyncIndexForShare back id := by
  induction front with
  | nil =>
      cases hback : findLinkSyncIndexForShare back id with
      | error reason => simp [hback, Functor.map, Except.map]
      | ok index => simp [hback, Functor.map, Except.map]
  | cons head tail ih =>
      obtain ⟨hvalid, hloaded⟩ := hfront head List.mem_cons_self
      obtain ⟨state, hstate⟩ := Ref.isLoaded_iff.mp hloaded
      rw [syncCount_cons] at habsent
      have hne : state.shareId ≠ id := by
        intro hid
        simp [syncKey, hstate, hid] at habsent
      have htail := ih (fun entry h => hfront entry (List.mem_cons_of_mem _ h)) (by omega)
      rw [List.cons_append, findLinkSyncIndexForShare]
      simp only [hvalid, hstate, Bool.not_true, Bool.false_eq_true, if_false, if_neg hne,
        htail]
      cases findLinkSyncIndexForShare back id with
      | error reason => rfl
      | ok index =>
          simp only [Functor.map, Except.map, List.length_cons, Except.ok.injEq]
          omega

/-- The first entry of a relationship is found. -/
theorem findLinkSyncIndexForShare_of_pos {front : List (Ref LinkSyncState)}
    (back : List (Ref LinkSyncState)) {id : ObjId} (hfront : ∀ entry ∈ front, entry.isValid = true ∧ entry.isLoaded = true)
    (hpos : 0 < syncCount front id) :
    ∃ before entry after, front = before ++ entry :: after ∧ syncKey entry = some id ∧
      findLinkSyncIndexForShare (front ++ back) id = .ok before.length := by
  obtain ⟨before, entry, after, rfl, hmatch, hbefore, -⟩ :=
    exists_split_of_findIdx_lt (findIdx_lt_length_iff_countP_pos.mpr hpos)
  have hkey : syncKey entry = some id := by simpa using hmatch
  refine ⟨before, entry, after, rfl, hkey, ?_⟩
  have habsent : syncCount before id = 0 := by
    rw [syncCount, List.countP_eq_zero]
    intro other hother
    simpa using hbefore other hother
  rw [List.append_assoc, findLinkSyncIndexForShare_append _
    (fun other h => hfront other (List.mem_append_left _ h)) habsent, List.cons_append]
  obtain ⟨hvalid, -⟩ := hfront entry (by simp)
  obtain ⟨state, hstate, hid⟩ := Option.map_eq_some_iff.mp hkey
  simp [findLinkSyncIndexForShare, hvalid, hstate, hid, Functor.map, Except.map]

/-- Without an entry of the relationship the search runs off the end. -/
theorem findLinkSyncIndexForShare_of_absent {entries : List (Ref LinkSyncState)}
    {id : ObjId}
    (hentries : ∀ entry ∈ entries, entry.isValid = true ∧ entry.isLoaded = true)
    (habsent : syncCount entries id = 0) :
    findLinkSyncIndexForShare entries id = .ok entries.length := by
  have hfind := findLinkSyncIndexForShare_append [] hentries habsent
  rw [List.append_nil] at hfind
  simpa [findLinkSyncIndexForShare, Functor.map, Except.map] using hfind

/-- An entry that cannot be loaded faults when the search gets to it. -/
theorem findLinkSyncIndexForShare_of_unloaded {front back : List (Ref LinkSyncState)}
    {blocked : Ref LinkSyncState} {id : ObjId}
    (hfront : ∀ entry ∈ front, entry.isValid = true ∧ entry.isLoaded = true)
    (habsent : syncCount front id = 0) (hvalid : blocked.isValid = true)
    (hobj : blocked.obj = none) :
    findLinkSyncIndexForShare (front ++ blocked :: back) id = .error .nullDeref := by
  rw [findLinkSyncIndexForShare_append _ hfront habsent]
  simp [findLinkSyncIndexForShare, hvalid, hobj, Functor.map, Except.map]

end Lookups

section Apply

variable {ids : Nat → ObjId} {fields next : SharedNodeFields α}

/-- The fields after opening a relationship, before its sync state is looked up. -/
def SharedNodeFields.opened (fields : SharedNodeFields α) (eventId : ObjId)
    (link : Ref Link) (access : UInt8) : SharedNodeFields α :=
  { fields with shares := fields.shares ++ [⟨eventId, link, access⟩] }

/-- `SharedNode::Apply(AddShareEvent)` returns exactly under its assertions. -/
theorem applyAddShare_eq_ok_iff {eventId : ObjId} {link : Ref Link} {access : UInt8} :
    fields.applyAddShare ids eventId link access = .ok next ↔
      link.isValid = true ∧ eventId.isValid = true ∧
      shareCount fields.shares eventId = 0 ∧
      findShareIndex fields.shares link.id = fields.shares.length ∧
      ∃ index, findLinkSyncIndexForShare fields.linkSyncStates eventId = .ok index ∧
        next = if index < fields.linkSyncStates.length
          then fields.opened eventId link access
          else (fields.opened eventId link access).createLinkSyncState ids eventId
            link.id := by
  simp only [SharedNodeFields.applyAddShare, except_bind_eq_ok_iff, assertThat_eq_ok_iff,
    decide_eq_true_eq, findShareIndexForShare_eq_length_iff, exists_const,
    SharedNodeFields.opened]
  refine and_congr_right fun _ => and_congr_right fun _ => and_congr_right fun _ =>
    and_congr_right fun _ => exists_congr fun index => and_congr_right fun _ => ?_
  by_cases hindex : index < fields.linkSyncStates.length
  · simp only [if_pos hindex]
    exact ⟨fun h => (Except.ok.inj h).symm, fun h => congrArg Except.ok h.symm⟩
  · simp only [if_neg hindex]
    exact ⟨fun h => (Except.ok.inj h).symm, fun h => congrArg Except.ok h.symm⟩

/-- `SharedNode::Apply(RemoveShareEvent)` returns exactly under its assertion. -/
theorem applyRemoveShare_eq_ok_iff {shareId : ObjId} :
    fields.applyRemoveShare shareId = .ok next ↔
      0 < shareCount fields.shares shareId ∧
      ∃ index, findLinkSyncIndexForShare fields.linkSyncStates shareId = .ok index ∧
        next = { fields with
          shares := fields.shares.eraseIdx (findShareIndexForShare fields.shares shareId)
          linkSyncStates := fields.linkSyncStates.eraseIdx index } := by
  simp only [SharedNodeFields.applyRemoveShare, except_bind_eq_ok_iff,
    assertThat_eq_ok_iff, decide_eq_true_eq, findShareIndexForShare_lt_iff, exists_const]
  refine and_congr_right fun _ => exists_congr fun index => and_congr_right fun _ => ?_
  exact ⟨fun h => (Except.ok.inj h).symm, fun h => congrArg Except.ok h.symm⟩

/-- `SharedNode::Apply(ChangeShareAccessEvent)` returns exactly under its
assertion. -/
theorem applyChangeShareAccess_eq_ok_iff {shareId : ObjId} {access : UInt8} :
    fields.applyChangeShareAccess shareId access = .ok next ↔
      0 < shareCount fields.shares shareId ∧
        next = { fields with
          shares := fields.shares.modify (findShareIndexForShare fields.shares shareId)
            fun share => { share with access := access } } := by
  simp only [SharedNodeFields.applyChangeShareAccess, except_bind_eq_ok_iff,
    assertThat_eq_ok_iff, decide_eq_true_eq, findShareIndexForShare_lt_iff, exists_const]
  refine and_congr_right fun _ => ?_
  exact ⟨fun h => (Except.ok.inj h).symm, fun h => congrArg Except.ok h.symm⟩

end Apply

section Trace

variable (app : AppClass α ε) (ids : Nat → ObjId)

/-- The entry that `SharedNode::Apply(AddShareEvent)` pushes for a new state. -/
def CreatedLinkSyncState.entry (made : CreatedLinkSyncState) : Ref LinkSyncState :=
  ⟨made.stateId, some (.fresh made.shareId made.link)⟩

/-- Where a replay stands after `records`: `kept` are the initial sync states it
has left in front of the first unloadable one, `own` those it made.

For an identity with initial relationships left, only those are open.  Without
any left, at most one relationship is open, the one its last `AddShareEvent`
opened, and an open one has a sync state, initial or own. -/
structure ReplayTrace (start : SharedNodeFields α)
    (records : List (EventRecord (SharedNodeEvent ε))) (fields : SharedNodeFields α)
    (kept own : List (Ref LinkSyncState)) : Prop where
  shares_eq : fields.shares = openShares start.shares records
  app_eq : fields.app = appAfter app start.app records
  sync_eq : fields.linkSyncStates = kept ++ unloadedSuffix start.linkSyncStates ++ own
  kept_sublist : kept.Sublist (loadedPrefix start.linkSyncStates)
  kept_count : ∀ id, syncCount kept id =
    syncCount (loadedPrefix start.linkSyncStates) id - removeCount records id
  blocked : unloadedSuffix start.linkSyncStates ≠ [] →
    own = [] ∧ fields.created = [] ∧
      ∀ id, removeCount records id ≤ syncCount (loadedPrefix start.linkSyncStates) id
  own_created : ∀ entry ∈ own, ∃ made ∈ fields.created, entry = made.entry
  created_ids : ∀ made ∈ fields.created, ∃ n,
    made.stateId = ids (2 * n) ∧ made.baseId = ids (2 * n + 1)
  created_origin : ∀ made ∈ fields.created, ∃ record ∈ records, ∃ link access,
    record.event.obj = some (.addShare link access) ∧
      made.shareId = record.event.id ∧ made.link = link.id
  share_left : ∀ id, removeCount records id < shareCount start.shares id →
    shareCount fields.shares id =
      shareCount start.shares id - removeCount records id
  share_le_one : ∀ id, shareCount start.shares id ≤ removeCount records id →
    shareCount fields.shares id ≤ 1
  own_share : ∀ id, 0 < syncCount own id →
    shareCount start.shares id ≤ removeCount records id ∧
      shareCount fields.shares id = 1 ∧ syncCount kept id = 0 ∧ syncCount own id = 1
  share_state : ∀ id, shareCount start.shares id ≤ removeCount records id →
    shareCount fields.shares id = 1 → 0 < syncCount kept id + syncCount own id

/-- What a replay may start from: valid entries, and nothing created yet. -/
structure ReplayStart (start : SharedNodeFields α) : Prop where
  valid : ∀ entry ∈ start.linkSyncStates, entry.isValid = true
  created_eq : start.created = []

variable {app ids}

theorem loadedPrefix_append_unloadedSuffix (entries : List (Ref LinkSyncState)) :
    loadedPrefix entries ++ unloadedSuffix entries = entries :=
  List.takeWhile_append_dropWhile

/-- The first entry of the unloaded suffix is not loaded. -/
theorem unloadedSuffix_head {entries rest : List (Ref LinkSyncState)}
    {blocked : Ref LinkSyncState} (h : unloadedSuffix entries = blocked :: rest) :
    blocked.obj = none := by
  induction entries with
  | nil => cases h
  | cons head tail ih =>
      rw [unloadedSuffix, List.dropWhile_cons] at h
      cases hloaded : head.isLoaded with
      | true =>
          rw [hloaded, if_pos rfl] at h
          exact ih h
      | false =>
          rw [hloaded, if_neg Bool.false_ne_true] at h
          obtain ⟨rfl, -⟩ := List.cons.inj h
          simpa [Ref.isLoaded] using hloaded

/-- The entries of the loaded prefix are loaded. -/
theorem isLoaded_of_mem_loadedPrefix {entries : List (Ref LinkSyncState)}
    {entry : Ref LinkSyncState} (h : entry ∈ loadedPrefix entries) :
    entry.isLoaded = true :=
  List.mem_takeWhile_imp h

theorem mem_of_mem_loadedPrefix {entries : List (Ref LinkSyncState)}
    {entry : Ref LinkSyncState} (h : entry ∈ loadedPrefix entries) : entry ∈ entries :=
  (List.takeWhile_sublist _).subset h

/-- Before its first record a replay stands at its start. -/
theorem replayTrace_start {start : SharedNodeFields α} (hstart : ReplayStart start) :
    ReplayTrace app ids start ([] : List (EventRecord (SharedNodeEvent ε))) start
      (loadedPrefix start.linkSyncStates) [] where
  shares_eq := rfl
  app_eq := rfl
  sync_eq := by
    rw [List.append_nil, loadedPrefix_append_unloadedSuffix]
  kept_sublist := List.Sublist.refl _
  kept_count id := by simp [removeCount]
  blocked _ := ⟨rfl, hstart.created_eq, by simp [removeCount]⟩
  own_created := by simp
  created_ids := by simp [hstart.created_eq]
  created_origin := by simp [hstart.created_eq]
  share_left id _ := by simp [removeCount]
  share_le_one id h := by
    simp only [removeCount, List.countP_nil] at h
    omega
  own_share id h := by simp [syncCount] at h
  share_state id hleft hone := by
    simp only [removeCount, List.countP_nil] at hleft
    omega

namespace ReplayTrace

variable {start fields : SharedNodeFields α}
  {records : List (EventRecord (SharedNodeEvent ε))}
  {kept own : List (Ref LinkSyncState)}

theorem kept_usable (h : ReplayTrace app ids start records fields kept own)
    (hstart : ReplayStart start) :
    ∀ entry ∈ kept, entry.isValid = true ∧ entry.isLoaded = true := by
  intro entry hentry
  have hmem := h.kept_sublist.subset hentry
  exact ⟨hstart.valid entry (mem_of_mem_loadedPrefix hmem),
    isLoaded_of_mem_loadedPrefix hmem⟩

theorem own_usable (h : ReplayTrace app ids start records fields kept own)
    (hids : ∀ n, (ids n).isValid = true) :
    ∀ entry ∈ own, entry.isValid = true ∧ entry.isLoaded = true := by
  intro entry hentry
  obtain ⟨made, hmade, rfl⟩ := h.own_created entry hentry
  obtain ⟨n, hn, -⟩ := h.created_ids made hmade
  exact ⟨by rw [Ref.isValid, CreatedLinkSyncState.entry, hn]; exact hids _, rfl⟩

/-- The four outcomes of a search for the sync state of a relationship: an
initial state, an own state, no state, or an unloadable entry in the way. -/
theorem find_cases (h : ReplayTrace app ids start records fields kept own)
    (hstart : ReplayStart start) (hids : ∀ n, (ids n).isValid = true) (id : ObjId) :
    (∃ before entry after, kept = before ++ entry :: after ∧ syncKey entry = some id ∧
      findLinkSyncIndexForShare fields.linkSyncStates id = .ok before.length) ∨
    (syncCount kept id = 0 ∧ unloadedSuffix start.linkSyncStates = [] ∧
      ∃ before entry after, own = before ++ entry :: after ∧ syncKey entry = some id ∧
        findLinkSyncIndexForShare fields.linkSyncStates id =
          .ok (kept.length + before.length)) ∨
    (syncCount kept id = 0 ∧ syncCount own id = 0 ∧
      unloadedSuffix start.linkSyncStates = [] ∧
      findLinkSyncIndexForShare fields.linkSyncStates id =
        .ok fields.linkSyncStates.length) ∨
    (syncCount kept id = 0 ∧ unloadedSuffix start.linkSyncStates ≠ [] ∧
      findLinkSyncIndexForShare fields.linkSyncStates id = .error .nullDeref) := by
  rw [h.sync_eq, List.append_assoc]
  rcases Nat.eq_zero_or_pos (syncCount kept id) with hkept | hkept
  case inr =>
    exact Or.inl (findLinkSyncIndexForShare_of_pos _ (h.kept_usable hstart) hkept)
  cases hsuffix : unloadedSuffix start.linkSyncStates with
  | nil =>
      rw [List.nil_append, findLinkSyncIndexForShare_append _ (h.kept_usable hstart) hkept]
      rcases Nat.eq_zero_or_pos (syncCount own id) with hown | hown
      · right; right; left
        refine ⟨hkept, hown, rfl, ?_⟩
        rw [findLinkSyncIndexForShare_of_absent (h.own_usable hids) hown]
        simp [Functor.map, Except.map]
      · right; left
        obtain ⟨before, entry, after, hsplit, hkey, hfind⟩ :=
          findLinkSyncIndexForShare_of_pos [] (h.own_usable hids) hown
        rw [List.append_nil] at hfind
        refine ⟨hkept, rfl, before, entry, after, hsplit, hkey, ?_⟩
        simp [hfind, Functor.map, Except.map]
  | cons blocked rest =>
      right; right; right
      refine ⟨hkept, List.cons_ne_nil _ _, ?_⟩
      have hmem : blocked ∈ start.linkSyncStates := by
        rw [← loadedPrefix_append_unloadedSuffix start.linkSyncStates, hsuffix]
        simp
      rw [List.cons_append, findLinkSyncIndexForShare_of_unloaded (h.kept_usable hstart)
        hkept (hstart.valid blocked hmem) (unloadedSuffix_head hsuffix)]

/-- A search that returns found a state exactly when the relationship has one. -/
theorem find_lt_iff (h : ReplayTrace app ids start records fields kept own)
    (hstart : ReplayStart start) (hids : ∀ n, (ids n).isValid = true) {id : ObjId}
    {index : Nat}
    (hfind : findLinkSyncIndexForShare fields.linkSyncStates id = .ok index) :
    index < fields.linkSyncStates.length ↔
      0 < syncCount kept id + syncCount own id := by
  have hlength := congrArg List.length h.sync_eq
  simp only [List.length_append] at hlength
  rcases h.find_cases hstart hids id with
    ⟨before, entry, after, hsplit, hkey, hfound⟩ |
    ⟨-, -, before, entry, after, hsplit, hkey, hfound⟩ |
    ⟨hkept, hown, -, hfound⟩ | ⟨-, -, hfound⟩
  · cases hfind.symm.trans hfound
    have hcount : 0 < syncCount kept id := by
      rw [hsplit, syncCount_append, syncCount_cons, if_pos hkey]
      omega
    have hlt : before.length < kept.length := by simp [hsplit]
    exact ⟨fun _ => by omega, fun _ => by omega⟩
  · cases hfind.symm.trans hfound
    have hcount : 0 < syncCount own id := by
      rw [hsplit, syncCount_append, syncCount_cons, if_pos hkey]
      omega
    have hlt : before.length < own.length := by simp [hsplit]
    exact ⟨fun _ => by omega, fun _ => by omega⟩
  · cases hfind.symm.trans hfound
    exact ⟨fun hlt => absurd hlt (Nat.lt_irrefl _), fun hpos => by omega⟩
  · cases hfind.symm.trans hfound

/-- Opening a relationship extends the trace. -/
theorem step_addShare (h : ReplayTrace app ids start records fields kept own)
    (hstart : ReplayStart start) (hids : ∀ n, (ids n).isValid = true)
    {record : EventRecord (SharedNodeEvent ε)} {link : Ref Link} {access : UInt8}
    (hevent : record.event.obj = some (.addShare link access))
    {next : SharedNodeFields α}
    (hnext : fields.applyAddShare ids record.event.id link access = .ok next) :
    ∃ own', ReplayTrace app ids start (records ++ [record]) next kept own' := by
  obtain ⟨-, -, hclosed, -, index, hfind, hnext⟩ := applyAddShare_eq_ok_iff.mp hnext
  have hlt := h.find_lt_iff hstart hids hfind
  have hremove : ∀ id, removeCount (records ++ [record]) id = removeCount records id := by
    intro id
    rw [removeCount_append, removeCount_singleton]
    simp [isRemoveOf, hevent]
  have hshares : (fields.opened record.event.id link access).shares =
      openShares start.shares (records ++ [record]) := by
    rw [openShares_snoc hevent, ← h.shares_eq]
    rfl
  have happ : (fields.opened record.event.id link access).app =
      appAfter app start.app (records ++ [record]) := by
    rw [appAfter_snoc, hevent, ← h.app_eq]
    rfl
  have hcount : ∀ id, shareCount (fields.opened record.event.id link access).shares id =
      shareCount fields.shares id + if record.event.id = id then 1 else 0 := by
    intro id
    rw [SharedNodeFields.opened, shareCount_append, shareCount_cons]
    simp [shareCount]
  -- No initial relationship of this identity is left, or one would be open.
  have hnone : shareCount start.shares record.event.id ≤
      removeCount records record.event.id := by
    by_contra hleft
    have hcount := h.share_left record.event.id (by omega)
    omega
  have horigin : ∀ made ∈ fields.created, ∃ record' ∈ records ++ [record], ∃ link access,
      record'.event.obj = some (.addShare link access) ∧
        made.shareId = record'.event.id ∧ made.link = link.id := by
    intro made hmade
    obtain ⟨other, hother, hrest⟩ := h.created_origin made hmade
    exact ⟨other, List.mem_append_left _ hother, hrest⟩
  have hleft : ∀ id, removeCount (records ++ [record]) id < shareCount start.shares id →
      shareCount (fields.opened record.event.id link access).shares id =
        shareCount start.shares id - removeCount (records ++ [record]) id := by
    intro id hid
    rw [hremove] at hid ⊢
    have hne : record.event.id ≠ id := by
      rintro rfl
      omega
    rw [hcount, h.share_left id hid, if_neg hne, Nat.add_zero]
  have hle : ∀ id, shareCount start.shares id ≤ removeCount (records ++ [record]) id →
      shareCount (fields.opened record.event.id link access).shares id ≤ 1 := by
    intro id hid
    rw [hremove] at hid
    rw [hcount]
    by_cases hsame : record.event.id = id
    · subst hsame
      rw [if_pos rfl]
      omega
    · rw [if_neg hsame]
      exact h.share_le_one id hid
  by_cases hindex : index < fields.linkSyncStates.length
  case pos =>
    rw [if_pos hindex] at hnext
    subst hnext
    refine ⟨own, ⟨hshares, happ, h.sync_eq, h.kept_sublist, ?_, ?_, h.own_created,
      h.created_ids, horigin, hleft, hle, ?_, ?_⟩⟩
    · intro id
      rw [hremove]
      exact h.kept_count id
    · intro hsuffix
      obtain ⟨hown, hcreated, hremoved⟩ := h.blocked hsuffix
      exact ⟨hown, hcreated, fun id => by rw [hremove]; exact hremoved id⟩
    · intro id hid
      obtain ⟨hover, hone, hkept, hown⟩ := h.own_share id hid
      have hne : record.event.id ≠ id := by
        rintro rfl
        omega
      refine ⟨by rw [hremove]; exact hover, ?_, hkept, hown⟩
      rw [hcount, if_neg hne, hone]
    · intro id hover hone
      rw [hremove] at hover
      by_cases hsame : record.event.id = id
      · subst hsame
        exact hlt.mp hindex
      · rw [hcount, if_neg hsame] at hone
        exact h.share_state id hover hone
  case neg =>
    rw [if_neg hindex] at hnext
    subst hnext
    have hzero : syncCount kept record.event.id + syncCount own record.event.id = 0 := by
      by_contra hpos
      exact hindex (hlt.mpr (by omega))
    have hsuffix : unloadedSuffix start.linkSyncStates = [] := by
      rcases h.find_cases hstart hids record.event.id with
        ⟨before, entry, after, hsplit, hkey, -⟩ | ⟨-, hnil, -⟩ | ⟨-, -, hnil, -⟩ |
        ⟨-, -, hfound⟩
      · rw [hsplit, syncCount_append, syncCount_cons, if_pos hkey] at hzero
        omega
      · exact hnil
      · exact hnil
      · cases hfind.symm.trans hfound
    let made : CreatedLinkSyncState := ⟨ids (2 * fields.created.length),
      ids (2 * fields.created.length + 1), record.event.id, link.id⟩
    have hmade : ∀ id, syncCount [made.entry] id =
        if record.event.id = id then 1 else 0 := by
      intro id
      rw [syncCount_cons]
      simp [syncCount, syncKey, made, CreatedLinkSyncState.entry, LinkSyncState.fresh]
    refine ⟨own ++ [made.entry], ⟨hshares, happ, ?_, h.kept_sublist, ?_, ?_, ?_, ?_, ?_,
      hleft, hle, ?_, ?_⟩⟩
    · change fields.linkSyncStates ++ [made.entry] = _
      rw [h.sync_eq, List.append_assoc]
    · intro id
      rw [hremove]
      exact h.kept_count id
    · intro hne
      exact absurd hsuffix hne
    · intro entry hentry
      rcases List.mem_append.mp hentry with hold | hnew
      · obtain ⟨other, hother, heq⟩ := h.own_created entry hold
        exact ⟨other, List.mem_append_left _ hother, heq⟩
      · exact ⟨made, List.mem_append_right _ List.mem_cons_self,
          List.mem_singleton.mp hnew⟩
    · intro other hother
      rcases List.mem_append.mp hother with hold | hnew
      · exact h.created_ids other hold
      · rw [List.mem_singleton.mp hnew]
        exact ⟨fields.created.length, rfl, rfl⟩
    · intro other hother
      rcases List.mem_append.mp hother with hold | hnew
      · exact horigin other hold
      · rw [List.mem_singleton.mp hnew]
        exact ⟨record, by simp, link, access, hevent, rfl, rfl⟩
    · intro id hid
      rw [syncCount_append, hmade] at hid ⊢
      change _ ∧ shareCount (fields.opened record.event.id link access).shares id = 1 ∧ _
      rw [hcount, hremove]
      by_cases hsame : record.event.id = id
      · subst hsame
        rw [if_pos rfl]
        omega
      · rw [if_neg hsame] at hid ⊢
        obtain ⟨hover, hone, hkept, hown⟩ := h.own_share id (by omega)
        omega
    · intro id hover hone
      change shareCount (fields.opened record.event.id link access).shares id = 1 at hone
      rw [hremove] at hover
      rw [hcount] at hone
      rw [syncCount_append, hmade]
      by_cases hsame : record.event.id = id
      · rw [if_pos hsame]
        omega
      · rw [if_neg hsame] at hone ⊢
        have hstate := h.share_state id hover hone
        omega

/-- What closing a relationship does to the counts of its own identity: one
initial relationship less if any is left, and else the one that is open. -/
theorem step_removeShare_of_sync
    (h : ReplayTrace app ids start records fields kept own)
    {record : EventRecord (SharedNodeEvent ε)} {shareId : ObjId}
    (hevent : record.event.obj = some (.removeShare shareId))
    (hopen : 0 < shareCount fields.shares shareId)
    {kept' own' entries' : List (Ref LinkSyncState)}
    (hentries : entries' = kept' ++ unloadedSuffix start.linkSyncStates ++ own')
    (hkeptSub : kept'.Sublist kept) (hownSub : own'.Sublist own)
    (hsuffix : unloadedSuffix start.linkSyncStates ≠ [] → 0 < syncCount kept shareId)
    (hkeptCount : ∀ id, syncCount kept' id =
      syncCount kept id - if shareId = id then 1 else 0)
    (hownCount : ∀ id, syncCount own' id =
      if shareId = id ∧ syncCount kept id = 0 then syncCount own id - 1
      else syncCount own id) :
    ReplayTrace app ids start (records ++ [record])
      { fields with
        shares := fields.shares.eraseIdx (findShareIndexForShare fields.shares shareId)
        linkSyncStates := entries' } kept' own' := by
  have hremove : ∀ id, removeCount (records ++ [record]) id =
      removeCount records id + if shareId = id then 1 else 0 := by
    intro id
    rw [removeCount_append, removeCount_singleton]
    simp [isRemoveOf, hevent]
  have hcount := shareCount_eraseIdx hopen
  constructor
  case shares_eq =>
    rw [openShares_snoc hevent, ← h.shares_eq]
    rfl
  case app_eq =>
    rw [appAfter_snoc, hevent]
    exact h.app_eq
  case sync_eq => exact hentries
  case kept_sublist => exact hkeptSub.trans h.kept_sublist
  case kept_count =>
    intro id
    rw [hkeptCount, h.kept_count, hremove]
    omega
  case blocked =>
    intro hne
    obtain ⟨hown, hcreated, hremoved⟩ := h.blocked hne
    refine ⟨?_, hcreated, ?_⟩
    · rw [hown] at hownSub
      exact List.sublist_nil.mp hownSub
    · intro id
      have hpos := hsuffix hne
      have hid := hremoved id
      rw [h.kept_count] at hpos
      rw [hremove]
      split
      case isTrue hsame =>
        subst hsame
        omega
      case isFalse => omega
  case own_created =>
    intro entry hentry
    exact h.own_created entry (hownSub.subset hentry)
  case created_ids => exact h.created_ids
  case created_origin =>
    intro made hmade
    obtain ⟨other, hother, hrest⟩ := h.created_origin made hmade
    exact ⟨other, List.mem_append_left _ hother, hrest⟩
  case share_left =>
    intro id hid
    rw [hremove] at hid ⊢
    rw [hcount]
    have hleft := h.share_left id
    by_cases hsame : shareId = id
    · subst hsame
      simp only [if_true] at hid ⊢
      omega
    · simp only [hsame, if_false] at hid ⊢
      exact hleft hid
  case share_le_one =>
    intro id hid
    rw [hremove] at hid
    rw [hcount]
    have hleft := h.share_left id
    have hle := h.share_le_one id
    by_cases hsame : shareId = id
    · subst hsame
      simp only [if_true] at hid ⊢
      omega
    · simp only [hsame, if_false] at hid ⊢
      exact hle hid
  case own_share =>
    intro id hid
    rw [hownCount] at hid ⊢
    rw [hkeptCount, hremove, hcount]
    have hshare := h.own_share id
    by_cases hsame : shareId = id
    · subst hsame
      simp only [true_and, if_true] at hid ⊢
      split at hid <;> omega
    · simp only [hsame, false_and, if_false] at hid ⊢
      obtain ⟨hover, hone, hkept, hown⟩ := hshare hid
      exact ⟨by omega, hone, by omega, hown⟩
  case share_state =>
    intro id hover hone
    rw [hremove] at hover
    rw [hcount] at hone
    rw [hownCount, hkeptCount]
    have hleft := h.share_left id
    have hle := h.share_le_one id
    have hstate := h.share_state id
    by_cases hsame : shareId = id
    · subst hsame
      simp only [if_true] at hover hone
      omega
    · simp only [hsame, false_and, if_false] at hover hone ⊢
      have hpos := hstate hover hone
      omega

/-- Closing a relationship extends the trace. -/
theorem step_removeShare (h : ReplayTrace app ids start records fields kept own)
    (hstart : ReplayStart start) (hids : ∀ n, (ids n).isValid = true)
    {record : EventRecord (SharedNodeEvent ε)} {shareId : ObjId}
    (hevent : record.event.obj = some (.removeShare shareId))
    {next : SharedNodeFields α} (hnext : fields.applyRemoveShare shareId = .ok next) :
    ∃ kept' own', ReplayTrace app ids start (records ++ [record]) next kept' own' := by
  obtain ⟨hopen, index, hfind, rfl⟩ := applyRemoveShare_eq_ok_iff.mp hnext
  rcases h.find_cases hstart hids shareId with
    ⟨before, entry, after, hsplit, hkey, hfound⟩ |
    ⟨hkept, hsuffix, before, entry, after, hsplit, hkey, hfound⟩ |
    ⟨hkept, hown, hsuffix, hfound⟩ | ⟨-, -, hfound⟩
  · -- An initial state of the relationship goes.
    cases hfind.symm.trans hfound
    have hpos : 0 < syncCount kept shareId := by
      rw [hsplit, syncCount_append, syncCount_cons, if_pos hkey]
      omega
    refine ⟨before ++ after, own, h.step_removeShare_of_sync hevent hopen ?_ ?_
      (List.Sublist.refl _) (fun _ => hpos) ?_ ?_⟩
    · rw [h.sync_eq, hsplit, List.append_assoc, List.append_assoc, List.cons_append,
        eraseIdx_split]
      simp
    · rw [hsplit]
      exact (List.Sublist.refl before).append (List.sublist_cons_self entry after)
    · intro id
      rw [hsplit, syncCount_append, syncCount_append, syncCount_cons, hkey]
      simp only [Option.some.injEq]
      split <;> omega
    · intro id
      rw [if_neg]
      rintro ⟨rfl, hzero⟩
      omega
  · -- Its own state goes.
    cases hfind.symm.trans hfound
    refine ⟨kept, before ++ after, h.step_removeShare_of_sync hevent hopen ?_
      (List.Sublist.refl _) ?_ (fun hne => absurd hsuffix hne) ?_ ?_⟩
    · rw [h.sync_eq, hsuffix, List.append_nil, hsplit, ← List.append_assoc,
        ← List.length_append, eraseIdx_split]
      simp
    · rw [hsplit]
      exact (List.Sublist.refl before).append (List.sublist_cons_self entry after)
    · intro id
      split
      case isTrue hsame =>
        subst hsame
        omega
      case isFalse => omega
    · intro id
      rw [hsplit, syncCount_append, syncCount_append, syncCount_cons, hkey]
      simp only [Option.some.injEq]
      by_cases hsame : shareId = id
      · subst hsame
        simp only [true_and, if_pos hkept, if_true]
        omega
      · simp [hsame]
  · -- It has none.
    cases hfind.symm.trans hfound
    refine ⟨kept, own, h.step_removeShare_of_sync hevent hopen ?_ (List.Sublist.refl _)
      (List.Sublist.refl _) (fun hne => absurd hsuffix hne) ?_ ?_⟩
    · rw [List.eraseIdx_of_length_le (Nat.le_refl _)]
      exact h.sync_eq
    · intro id
      split
      case isTrue hsame =>
        subst hsame
        omega
      case isFalse => omega
    · intro id
      split
      case isTrue hsame =>
        obtain ⟨rfl, -⟩ := hsame
        omega
      case isFalse => rfl
  · cases hfind.symm.trans hfound

/-- An Event that opens and closes nothing extends the trace. -/
theorem step_of_counts_eq (h : ReplayTrace app ids start records fields kept own)
    {record : EventRecord (SharedNodeEvent ε)} {event : SharedNodeEvent ε}
    (hevent : record.event.obj = some event) {next : SharedNodeFields α}
    (hremove : ∀ id, isRemoveOf id record = false)
    (hshares : next.shares = stepShares fields.shares record.event.id event)
    (hcount : ∀ id, shareCount next.shares id = shareCount fields.shares id)
    (happ : next.app = appAfter app start.app (records ++ [record]))
    (hsync : next.linkSyncStates = fields.linkSyncStates)
    (hcreated : next.created = fields.created) :
    ReplayTrace app ids start (records ++ [record]) next kept own := by
  have hremoved : ∀ id, removeCount (records ++ [record]) id = removeCount records id := by
    intro id
    rw [removeCount_append, removeCount_singleton, hremove id]
    simp
  constructor
  case shares_eq => rw [openShares_snoc hevent, ← h.shares_eq, hshares]
  case app_eq => exact happ
  case sync_eq => rw [hsync, h.sync_eq]
  case kept_sublist => exact h.kept_sublist
  case kept_count => simpa only [hremoved] using h.kept_count
  case blocked => simpa only [hremoved, hcreated] using h.blocked
  case own_created => simpa only [hcreated] using h.own_created
  case created_ids => simpa only [hcreated] using h.created_ids
  case created_origin =>
    intro made hmade
    rw [hcreated] at hmade
    obtain ⟨other, hother, hrest⟩ := h.created_origin made hmade
    exact ⟨other, List.mem_append_left _ hother, hrest⟩
  case share_left => simpa only [hremoved, hcount] using h.share_left
  case share_le_one => simpa only [hremoved, hcount] using h.share_le_one
  case own_share => simpa only [hremoved, hcount] using h.own_share
  case share_state => simpa only [hremoved, hcount] using h.share_state

end ReplayTrace

/-- A replay of topology Events keeps its trace. -/
theorem replayTrace_stepPreserves {start : SharedNodeFields α}
    (hstart : ReplayStart start) (hids : ∀ n, (ids n).isValid = true) :
    StepPreserves (app.nodeClass ids) fun records fields =>
      ∃ kept own, ReplayTrace app ids start records fields kept own := by
  rintro done fields record event next ⟨kept, own, h⟩ hevent - hnext
  change app.applyTo ids fields record.event.id event = .ok next at hnext
  cases event with
  | addShare link access =>
      obtain ⟨own', htrace⟩ := h.step_addShare hstart hids hevent hnext
      exact ⟨kept, own', htrace⟩
  | removeShare shareId => exact h.step_removeShare hstart hids hevent hnext
  | changeShareAccess shareId access =>
      obtain ⟨-, rfl⟩ := applyChangeShareAccess_eq_ok_iff.mp hnext
      refine ⟨kept, own, h.step_of_counts_eq hevent ?_ rfl ?_ ?_ rfl rfl⟩
      · simp [isRemoveOf, hevent]
      · exact shareCount_modify_access _ _ _
      · rw [appAfter_snoc, hevent]
        exact h.app_eq
  | app event =>
      cases hnext
      refine ⟨kept, own, h.step_of_counts_eq hevent ?_ rfl (fun _ => rfl) ?_ rfl rfl⟩
      · simp [isRemoveOf, hevent]
      · rw [appAfter_snoc, hevent, ← h.app_eq]

end Trace

end AppTraverse
