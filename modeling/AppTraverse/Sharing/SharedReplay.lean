import AppTraverse.Sharing.TopologyReplay

/-!
# Replays of the shared state

The shared half of a SharedNode, its open Shares and its application fields, moves on
its own: no Event looks at a local sync state to decide whether it applies or what it
does to them.  `sharedStep` is that half as a partial machine.

The other half follows it.  A rebuild puts the stashed local sync states in front of a
replay that opens and closes historical relationships too.  As long as nothing it
closes has a stashed state, the stash stays a prefix, and what stands behind it
belongs to relationships that are open and have no stashed state.
-/

namespace AppTraverse

open Foundations

variable {α ε : Type}

/-- The network-shared half of the fields. -/
def SharedNodeFields.shared (fields : SharedNodeFields α) : SharedState α :=
  ⟨fields.shares, fields.app⟩

section Machine

variable (app : AppClass α ε)

/-- The precondition of an Event on the shared state. -/
def SharedAdmits (state : SharedState α) (eventId : ObjId) : SharedNodeEvent ε → Prop
  | .addShare link _ =>
      link.isValid = true ∧ eventId.isValid = true ∧
        shareCount state.shares eventId = 0 ∧
        findShareIndex state.shares link.id = state.shares.length
  | .removeShare shareId => 0 < shareCount state.shares shareId
  | .changeShareAccess shareId _ => 0 < shareCount state.shares shareId
  | .app event => app.canApply state.app event = true

instance (state : SharedState α) (eventId : ObjId) (event : SharedNodeEvent ε) :
    Decidable (SharedAdmits app state eventId event) := by
  cases event <;> unfold SharedAdmits <;> infer_instance

/-- The shared state after an Event that applies. -/
def SharedState.after (state : SharedState α) (eventId : ObjId)
    (event : SharedNodeEvent ε) : SharedState α where
  shares := stepShares state.shares eventId event
  app := match event with
    | .app event => app.apply state.app event
    | _ => state.app

/-- One Event on the shared state. -/
def sharedStep (state : SharedState α) (eventId : ObjId) (event : SharedNodeEvent ε) :
    Option (SharedState α) :=
  if SharedAdmits app state eventId event then some (state.after app eventId event) else none

/-- A complete replay of the shared state. -/
def sharedReplay (state : SharedState α) :
    List (EventRecord (SharedNodeEvent ε)) → Option (SharedState α)
  | [] => some state
  | record :: rest =>
      if record.event.isValid then
        match record.event.obj with
        | none => none
        | some event =>
            (sharedStep app state record.event.id event).bind fun next =>
              sharedReplay next rest
      else
        none

variable {app} {state final : SharedState α}

theorem sharedStep_eq_some_iff {eventId : ObjId} {event : SharedNodeEvent ε} :
    sharedStep app state eventId event = some final ↔
      SharedAdmits app state eventId event ∧ final = state.after app eventId event := by
  by_cases hadmits : SharedAdmits app state eventId event
  · simp [sharedStep, hadmits, eq_comm]
  · simp [sharedStep, hadmits]

/-- A replay takes its first record, and then the rest. -/
theorem sharedReplay_cons_iff {record : EventRecord (SharedNodeEvent ε)}
    {rest : List (EventRecord (SharedNodeEvent ε))} :
    sharedReplay app state (record :: rest) = some final ↔
      record.event.isValid = true ∧ ∃ event, record.event.obj = some event ∧
        SharedAdmits app state record.event.id event ∧
        sharedReplay app (state.after app record.event.id event) rest = some final := by
  rw [sharedReplay]
  cases hvalid : record.event.isValid with
  | false => simp
  | true =>
      cases hobj : record.event.obj with
      | none => simp
      | some event =>
          simp only [if_true, Option.bind_eq_some_iff, sharedStep_eq_some_iff, true_and,
            Option.some.injEq, exists_eq_left']
          constructor
          · rintro ⟨next, ⟨hadmits, rfl⟩, hrest⟩
            exact ⟨hadmits, hrest⟩
          · rintro ⟨hadmits, hrest⟩
            exact ⟨_, ⟨hadmits, rfl⟩, hrest⟩

theorem sharedReplay_append {records records' : List (EventRecord (SharedNodeEvent ε))} :
    sharedReplay app state (records ++ records') =
      (sharedReplay app state records).bind fun middle => sharedReplay app middle records' := by
  induction records generalizing state with
  | nil => rfl
  | cons record rest ih =>
      rw [List.cons_append, sharedReplay, sharedReplay]
      cases record.event.isValid with
      | false => rfl
      | true =>
          cases record.event.obj with
          | none => rfl
          | some event =>
              simp only [if_true, Option.bind_assoc]
              exact congrArg _ (funext fun _ => ih)

/-- The Shares that a replay leaves open. -/
theorem shares_of_sharedReplay {records : List (EventRecord (SharedNodeEvent ε))}
    (h : sharedReplay app state records = some final) :
    final.shares = openShares state.shares records := by
  induction records generalizing state with
  | nil =>
      cases h
      rfl
  | cons record rest ih =>
      obtain ⟨-, event, hevent, -, hrest⟩ := sharedReplay_cons_iff.mp h
      rw [ih hrest, openShares, openShares, List.foldl_cons, hevent]
      rfl

/-- An application Event opens and closes nothing, wherever it is inserted. -/
theorem openShares_insert_app {before after : List (EventRecord (SharedNodeEvent ε))}
    {record : EventRecord (SharedNodeEvent ε)} {value : ε}
    (hvalue : record.event.obj = some (.app value)) (shares : List Share) :
    openShares shares (before ++ record :: after) = openShares shares (before ++ after) := by
  rw [openShares_append, openShares_append]
  conv_lhs => rw [openShares, List.foldl_cons, hvalue]
  rfl

end Machine

section Refinement

variable {app : AppClass α ε} {ids : Nat → ObjId} {fields next : SharedNodeFields α}

/-- What an Event does to the shared half, on the fields of an object. -/
theorem sharedStep_of_applyTo {eventId : ObjId} {event : SharedNodeEvent ε}
    (hcan : app.canApplyTo fields event = true)
    (h : app.applyTo ids fields eventId event = .ok next) :
    SharedAdmits app fields.shared eventId event ∧
      next.shared = fields.shared.after app eventId event := by
  cases event with
  | addShare link access =>
      obtain ⟨hlink, hvalid, hclosed, hunshared, index, -, rfl⟩ :=
        applyAddShare_eq_ok_iff.mp h
      refine ⟨⟨hlink, hvalid, hclosed, hunshared⟩, ?_⟩
      split <;> rfl
  | removeShare shareId =>
      obtain ⟨hopen, index, -, rfl⟩ := applyRemoveShare_eq_ok_iff.mp h
      exact ⟨hopen, rfl⟩
  | changeShareAccess shareId access =>
      obtain ⟨hopen, rfl⟩ := applyChangeShareAccess_eq_ok_iff.mp h
      exact ⟨hopen, rfl⟩
  | app event =>
      cases h
      exact ⟨hcan, rfl⟩

/-- A complete replay of an object is one of its shared half. -/
theorem sharedReplay_of_applyRecords {records : List (EventRecord (SharedNodeEvent ε))}
    {applied : Applied (SharedNodeFields α)}
    (h : applyRecords (app.nodeClass ids) fields records = .ok applied)
    (hcomplete : applied.complete = true) :
    sharedReplay app fields.shared records = some applied.fields.shared := by
  induction records generalizing fields applied with
  | nil =>
      cases h
      rfl
  | cons record rest ih =>
      cases happlies : recordApplies (app.nodeClass ids) fields record with
      | false =>
          rw [applyRecords_cons_of_not_applies _ happlies] at h
          cases h
          cases hcomplete
      | true =>
          obtain ⟨event, hevent⟩ := exists_event_of_applies _ happlies
          rw [applyRecords_cons_of_applies _ happlies hevent] at h
          obtain ⟨middle, hmiddle, h⟩ := except_bind_eq_ok_iff.mp h
          obtain ⟨tail, htail, h⟩ := except_bind_eq_ok_iff.mp h
          cases Except.ok.inj h
          have hrest := ih htail hcomplete
          obtain ⟨hvalid, hcan⟩ : record.event.isValid = true ∧
              app.canApplyTo fields event = true := by
            simpa [recordApplies, hevent, AppClass.nodeClass] using happlies
          obtain ⟨hadmits, hafter⟩ := sharedStep_of_applyTo hcan hmiddle
          refine sharedReplay_cons_iff.mpr ⟨hvalid, event, hevent, hadmits, ?_⟩
          rw [← hafter]
          exact hrest

end Refinement

section Stash

variable {app : AppClass α ε} {ids : Nat → ObjId}

/-- Local sync states that a replay can search: valid and loaded. -/
def StatesUsable (entries : List (Ref LinkSyncState)) : Prop :=
  ∀ entry ∈ entries, entry.isValid = true ∧ entry.isLoaded = true

/-- Where a replay over a stash stands: the stash as it was, and behind it one state for
some open relationships without a stashed one. -/
structure StatesOverStash (stash own : List (Ref LinkSyncState))
    (fields : SharedNodeFields α) : Prop where
  states_eq : fields.linkSyncStates = stash ++ own
  usable : StatesUsable own
  own_open : ∀ id, 0 < syncCount own id →
    syncCount stash id = 0 ∧ shareCount fields.shares id = 1 ∧ syncCount own id = 1

/-- The record closes no relationship with a stashed state. -/
def SparesStash (stash : List (Ref LinkSyncState))
    (record : EventRecord (SharedNodeEvent ε)) : Prop :=
  ∀ id, isRemoveOf id record = true → syncCount stash id = 0

variable {stash own : List (Ref LinkSyncState)} {fields : SharedNodeFields α}

theorem statesOverStash_start (hstates : fields.linkSyncStates = stash) :
    StatesOverStash stash [] fields where
  states_eq := by rw [hstates, List.append_nil]
  usable := by simp [StatesUsable]
  own_open := by simp [syncCount]

namespace StatesOverStash

theorem all_usable (h : StatesOverStash stash own fields) (hstash : StatesUsable stash) :
    StatesUsable fields.linkSyncStates := by
  intro entry hentry
  rw [h.states_eq] at hentry
  rcases List.mem_append.mp hentry with hmem | hmem
  · exact hstash entry hmem
  · exact h.usable entry hmem

/-- An Event that opens a relationship whose id is not open yet. -/
theorem step_addShare (h : StatesOverStash stash own fields) (hstash : StatesUsable stash)
    (hids : ∀ n, (ids n).isValid = true) {eventId : ObjId} {link : Ref Link} {access : UInt8}
    (hadmits : SharedAdmits app fields.shared eventId (.addShare link access)) :
    ∃ next own', fields.applyAddShare ids eventId link access = .ok next ∧
      StatesOverStash stash own' next := by
  obtain ⟨hlink, hvalid, hclosed, hunshared⟩ := hadmits
  change shareCount fields.shares eventId = 0 at hclosed
  have hcount : ∀ id, shareCount (fields.opened eventId link access).shares id =
      shareCount fields.shares id + if eventId = id then 1 else 0 := by
    intro id
    rw [SharedNodeFields.opened, shareCount_append, shareCount_cons]
    simp [shareCount]
  -- A relationship that is not open has no own state.
  have hown : syncCount own eventId = 0 := by
    by_contra hpos
    have hopen := (h.own_open eventId (by omega)).2.1
    omega
  have hkeep : ∀ id, 0 < syncCount own id → syncCount stash id = 0 ∧
      shareCount (fields.opened eventId link access).shares id = 1 ∧
      syncCount own id = 1 := by
    intro id hid
    obtain ⟨habsent, hone, hsingle⟩ := h.own_open id hid
    have hne : eventId ≠ id := by
      rintro rfl
      omega
    rw [hcount, if_neg hne]
    exact ⟨habsent, hone, hsingle⟩
  rcases Nat.eq_zero_or_pos (syncCount stash eventId) with habsent | hpresent
  · have hfind : findLinkSyncIndexForShare fields.linkSyncStates eventId =
        .ok fields.linkSyncStates.length := by
      refine findLinkSyncIndexForShare_of_absent (h.all_usable hstash) ?_
      rw [h.states_eq, syncCount_append]
      omega
    let entry : Ref LinkSyncState :=
      ⟨ids (2 * fields.created.length), some (.fresh eventId link.id)⟩
    have hentry : ∀ id, syncCount [entry] id = if eventId = id then 1 else 0 := by
      intro id
      rw [syncCount_cons]
      simp [syncCount, syncKey, entry, LinkSyncState.fresh]
    refine ⟨(fields.opened eventId link access).createLinkSyncState ids eventId link.id,
      own ++ [entry], ?_, ?_, ?_, ?_⟩
    · refine applyAddShare_eq_ok_iff.mpr ⟨hlink, hvalid, hclosed, hunshared, _, hfind, ?_⟩
      rw [if_neg (Nat.lt_irrefl _)]
    · show fields.linkSyncStates ++ [entry] = _
      rw [h.states_eq, List.append_assoc]
    · intro other hother
      rcases List.mem_append.mp hother with hold | hnew
      · exact h.usable other hold
      · rw [List.mem_singleton.mp hnew]
        exact ⟨hids _, rfl⟩
    · intro id hid
      show syncCount stash id = 0 ∧
        shareCount (fields.opened eventId link access).shares id = 1 ∧ _
      rw [syncCount_append, hentry] at hid ⊢
      by_cases hsame : eventId = id
      · subst hsame
        rw [hcount, if_pos rfl]
        omega
      · rw [if_neg hsame] at hid ⊢
        have hold := hkeep id (by omega)
        omega
  · obtain ⟨before, entry, after, hsplit, -, hfind⟩ :=
      findLinkSyncIndexForShare_of_pos own hstash hpresent
    refine ⟨fields.opened eventId link access, own, ?_, h.states_eq, h.usable, hkeep⟩
    refine applyAddShare_eq_ok_iff.mpr ⟨hlink, hvalid, hclosed, hunshared, before.length, ?_, ?_⟩
    · rw [h.states_eq]
      exact hfind
    · rw [if_pos]
      rw [h.states_eq, hsplit]
      simp

/-- An Event that closes a relationship without a stashed state. -/
theorem step_removeShare (h : StatesOverStash stash own fields) (hstash : StatesUsable stash)
    {shareId : ObjId} (hopen : 0 < shareCount fields.shares shareId)
    (hspared : syncCount stash shareId = 0) :
    ∃ next own', fields.applyRemoveShare shareId = .ok next ∧
      StatesOverStash stash own' next := by
  have hcount := shareCount_eraseIdx hopen
  rcases Nat.eq_zero_or_pos (syncCount own shareId) with habsent | hpresent
  · have hfind : findLinkSyncIndexForShare fields.linkSyncStates shareId =
        .ok fields.linkSyncStates.length := by
      refine findLinkSyncIndexForShare_of_absent (h.all_usable hstash) ?_
      rw [h.states_eq, syncCount_append]
      omega
    refine ⟨_, own, applyRemoveShare_eq_ok_iff.mpr ⟨hopen, _, hfind, rfl⟩, ?_, h.usable, ?_⟩
    · rw [List.eraseIdx_of_length_le (Nat.le_refl _)]
      exact h.states_eq
    · intro id hid
      obtain ⟨hnone, hone, hsingle⟩ := h.own_open id hid
      have hne : shareId ≠ id := by
        rintro rfl
        omega
      rw [hcount, if_neg hne]
      exact ⟨hnone, hone, hsingle⟩
  · obtain ⟨before, entry, after, hsplit, hkey, hfind⟩ :=
      findLinkSyncIndexForShare_of_pos [] h.usable hpresent
    rw [List.append_nil] at hfind
    have hfound : findLinkSyncIndexForShare fields.linkSyncStates shareId =
        .ok (stash.length + before.length) := by
      rw [h.states_eq, findLinkSyncIndexForShare_append own hstash hspared, hfind]
      rfl
    have hleft : ∀ id, syncCount (before ++ after) id =
        syncCount own id - if shareId = id then 1 else 0 := by
      intro id
      rw [hsplit, syncCount_append, syncCount_append, syncCount_cons, hkey]
      simp only [Option.some.injEq]
      split <;> omega
    refine ⟨_, before ++ after, applyRemoveShare_eq_ok_iff.mpr ⟨hopen, _, hfound, rfl⟩,
      ?_, ?_, ?_⟩
    · show fields.linkSyncStates.eraseIdx (stash.length + before.length) = _
      rw [h.states_eq, hsplit, ← List.append_assoc, ← List.length_append, eraseIdx_split,
        List.append_assoc]
    · intro other hother
      refine h.usable other ?_
      rw [hsplit]
      rcases List.mem_append.mp hother with hmem | hmem
      · exact List.mem_append_left _ hmem
      · exact List.mem_append_right _ (List.mem_cons_of_mem _ hmem)
    · intro id hid
      rw [hleft] at hid ⊢
      rw [hcount]
      obtain ⟨hnone, hone, hsingle⟩ := h.own_open id (by omega)
      by_cases hsame : shareId = id
      · rw [if_pos hsame] at hid
        omega
      · rw [if_neg hsame, if_neg hsame]
        omega

/-- What the shared half admits, the object applies, and its stash stays. -/
theorem step (h : StatesOverStash stash own fields) (hstash : StatesUsable stash)
    (hids : ∀ n, (ids n).isValid = true) {record : EventRecord (SharedNodeEvent ε)}
    {event : SharedNodeEvent ε} (hevent : record.event.obj = some event)
    (hspares : SparesStash stash record)
    (hadmits : SharedAdmits app fields.shared record.event.id event) :
    ∃ next own', app.applyTo ids fields record.event.id event = .ok next ∧
      StatesOverStash stash own' next := by
  cases event with
  | addShare link access => exact h.step_addShare hstash hids hadmits
  | removeShare shareId =>
      refine h.step_removeShare hstash hadmits (hspares shareId ?_)
      simp [isRemoveOf, hevent]
  | changeShareAccess shareId access =>
      refine ⟨_, own, applyChangeShareAccess_eq_ok_iff.mpr ⟨hadmits, rfl⟩, h.states_eq,
        h.usable, ?_⟩
      intro id hid
      rw [shareCount_modify_access]
      exact h.own_open id hid
  | app event => exact ⟨_, own, rfl, h.states_eq, h.usable, h.own_open⟩

end StatesOverStash

/-- A record that the shared half admits can be applied. -/
theorem recordApplies_of_sharedAdmits {record : EventRecord (SharedNodeEvent ε)}
    {event : SharedNodeEvent ε} (hvalid : record.event.isValid = true)
    (hevent : record.event.obj = some event)
    (hadmits : SharedAdmits app fields.shared record.event.id event) :
    recordApplies (app.nodeClass ids) fields record = true := by
  have hcan : app.canApplyTo fields event = true := by
    cases event with
    | app event => exact hadmits
    | addShare link access => rfl
    | removeShare shareId => rfl
    | changeShareAccess shareId access => rfl
  simpa [recordApplies, hvalid, hevent, AppClass.nodeClass] using hcan

/-- A replay over a stash: it goes as far as the shared half does, to the same shared
state, and the stash is still there. -/
theorem applyRecords_of_sharedReplay (hids : ∀ n, (ids n).isValid = true)
    (hstash : StatesUsable stash) {records : List (EventRecord (SharedNodeEvent ε))}
    (hspares : ∀ record ∈ records, SparesStash stash record) {final : SharedState α}
    (h : StatesOverStash stash own fields)
    (hreplay : sharedReplay app fields.shared records = some final) :
    ∃ applied own', applyRecords (app.nodeClass ids) fields records = .ok applied ∧
      applied.complete = true ∧ applied.count = records.length ∧
      applied.fields.shared = final ∧ StatesOverStash stash own' applied.fields := by
  induction records generalizing fields own with
  | nil =>
      cases hreplay
      exact ⟨_, own, rfl, rfl, rfl, rfl, h⟩
  | cons record rest ih =>
      obtain ⟨hvalid, event, hevent, hadmits, hrest⟩ := sharedReplay_cons_iff.mp hreplay
      have happlies : recordApplies (app.nodeClass ids) fields record = true :=
        recordApplies_of_sharedAdmits hvalid hevent hadmits
      obtain ⟨next, own', hnext, hover⟩ :=
        h.step hstash hids hevent (hspares record List.mem_cons_self) hadmits
      have hcan : app.canApplyTo fields event = true := by
        simpa [recordApplies, hvalid, hevent, AppClass.nodeClass] using happlies
      rw [← (sharedStep_of_applyTo hcan hnext).2] at hrest
      obtain ⟨applied, own'', hrun, hcomplete, hcount, hshared, hlast⟩ :=
        ih (fun other hother => hspares other (List.mem_cons_of_mem _ hother)) hover hrest
      refine ⟨{ applied with count := applied.count + 1 }, own'', ?_, hcomplete, ?_, hshared,
        hlast⟩
      · rw [applyRecords_cons_of_applies _ happlies hevent]
        show (app.applyTo ids fields record.event.id event >>= _) = _
        rw [hnext]
        simp [bind, Except.bind, hrun, pure, Except.pure]
      · simp [hcount]

end Stash

end AppTraverse
