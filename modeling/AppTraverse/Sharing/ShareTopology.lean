import AppTraverse.Sharing.SharedReplay
import Mathlib.Data.List.Nodup
import Mathlib.Data.List.Count
import Mathlib.Data.Option.Basic

/-!
# The topology of a SharedNode

What the open Shares and the local sync states owe to each other: a Link is shared
once, a relationship is listed once, and it has one local sync state.  Each topology
Event keeps this, and so does a rebuild, which may open and close any number of
historical relationships on the way.
-/

namespace AppTraverse

open Foundations

variable {α ε : Type}

/-- Open Shares over pairwise different Links, with pairwise different ids. -/
structure SharesUnique (shares : List Share) : Prop where
  linkValid : ∀ share ∈ shares, share.link.isValid = true
  links : (shares.map fun share => share.link.id).Nodup
  ids : (shares.map Share.shareId).Nodup

/-- Every open relationship has one local sync state, and only those have one. -/
structure StatesMatch (shares : List Share) (entries : List (Ref LinkSyncState)) : Prop where
  usable : StatesUsable entries
  count : ∀ id, syncCount entries id = shareCount shares id

theorem SharesUnique.shareCount_le_one {shares : List Share} (h : SharesUnique shares)
    (id : ObjId) : shareCount shares id ≤ 1 := by
  rw [shareCount_eq_count]
  exact List.nodup_iff_count_le_one.mp h.ids id

theorem shareCount_pos_iff {shares : List Share} {id : ObjId} :
    0 < shareCount shares id ↔ id ∈ shares.map Share.shareId := by
  rw [shareCount_eq_count, List.count_pos_iff]

/-- A usable entry has a key. -/
theorem exists_syncKey {entries : List (Ref LinkSyncState)} (h : StatesUsable entries)
    {entry : Ref LinkSyncState} (hentry : entry ∈ entries) :
    ∃ state, entry.obj = some state ∧ syncKey entry = some state.shareId := by
  obtain ⟨state, hstate⟩ := Ref.isLoaded_iff.mp (h entry hentry).2
  exact ⟨state, hstate, by rw [syncKey, hstate]; rfl⟩

/-- The local sync states correspond one-to-one to the open Shares by share id. -/
theorem StatesMatch.perm {shares : List Share} {entries : List (Ref LinkSyncState)}
    (h : StatesMatch shares entries) :
    (entries.map syncKey).Perm ((shares.map Share.shareId).map some) := by
  rw [List.perm_iff_count]
  intro key
  cases key with
  | none =>
      have hleft : (none : Option ObjId) ∉ entries.map syncKey := by
        rw [List.mem_map]
        rintro ⟨entry, hentry, hkey⟩
        obtain ⟨state, -, hsome⟩ := exists_syncKey h.usable hentry
        rw [hsome] at hkey
        cases hkey
      have hright : (none : Option ObjId) ∉ (shares.map Share.shareId).map some := by simp
      rw [List.count_eq_zero_of_not_mem hleft, List.count_eq_zero_of_not_mem hright]
  | some id =>
      rw [List.count_map_of_injective _ _ (Option.some_injective _), ← shareCount_eq_count,
        ← syncCount_eq_count]
      exact h.count id

/-- Over usable entries the search is a search by key. -/
theorem findLinkSyncIndexForShare_eq_findIdx {entries : List (Ref LinkSyncState)}
    (h : StatesUsable entries) (id : ObjId) :
    findLinkSyncIndexForShare entries id =
      .ok (entries.findIdx fun entry => decide (syncKey entry = some id)) := by
  induction entries with
  | nil => rfl
  | cons head tail ih =>
      obtain ⟨state, hstate, hkey⟩ := exists_syncKey h (List.mem_cons_self (a := head))
      have hvalid := (h head List.mem_cons_self).1
      have htail := ih fun entry hentry => h entry (List.mem_cons_of_mem _ hentry)
      rw [findLinkSyncIndexForShare, hvalid, hstate, List.findIdx_cons, hkey]
      by_cases hid : state.shareId = id
      · simp [hid]
      · simp [hid, htail, Functor.map, Except.map]

/-- A Link is shared exactly when the search for it finds a Share. -/
theorem findShareIndex_lt_iff {shares : List Share} (h : SharesUnique shares) {linkId : ObjId} :
    findShareIndex shares linkId < shares.length ↔
      linkId ∈ shares.map fun share => share.link.id := by
  rw [findShareIndex, findIdx_lt_length_iff_countP_pos, List.countP_pos_iff, List.mem_map]
  refine exists_congr fun share => and_congr_right fun hshare => ?_
  simp [h.linkValid share hshare]

/-- The Share that the search for a Link finds. -/
theorem getElem?_findShareIndex {shares : List Share} {linkId : ObjId} {share : Share}
    (h : shares[findShareIndex shares linkId]? = some share) :
    share ∈ shares ∧ share.link.id = linkId := by
  obtain ⟨hlt, hget⟩ := List.getElem?_eq_some_iff.mp h
  obtain ⟨before, found, after, hsplit, hmatch, -, hindex⟩ := exists_split_of_findIdx_lt hlt
  rw [Bool.and_eq_true, decide_eq_true_eq] at hmatch
  have hfound : found = share := by
    rw [findShareIndex, hindex, hsplit] at h
    simpa using h
  rw [← hfound]
  exact ⟨hsplit ▸ List.mem_append_right _ List.mem_cons_self, hmatch.2⟩

/-- The states that a condition keeps are those of the relationships that stay open. -/
theorem filter_eq_filter_open {shares : List Share} {entries : List (Ref LinkSyncState)}
    {keep : Ref LinkSyncState → Bool} (h : StatesMatch shares (entries.filter keep))
    (hdropped : ∀ entry ∈ entries, keep entry = false →
      syncKey entry ∉ (shares.map Share.shareId).map some) :
    entries.filter keep = entries.filter fun entry =>
      decide (syncKey entry ∈ (shares.map Share.shareId).map some) := by
  refine List.filter_congr fun entry hentry => ?_
  cases hkeep : keep entry with
  | false => simpa using hdropped entry hentry hkeep
  | true =>
      have hmem : entry ∈ entries.filter keep := List.mem_filter.mpr ⟨hentry, hkeep⟩
      have hopen : syncKey entry ∈ (shares.map Share.shareId).map some :=
        h.perm.mem_iff.mp (List.mem_map_of_mem hmem)
      exact (decide_eq_true hopen).symm

/-- Without a relationship that ended, all states stay. -/
theorem StatesMatch.filter_open {shares : List Share} {entries : List (Ref LinkSyncState)}
    (h : StatesMatch shares entries) :
    (entries.filter fun entry =>
      decide (syncKey entry ∈ (shares.map Share.shareId).map some)) = entries := by
  rw [List.filter_eq_self]
  intro entry hentry
  exact decide_eq_true (h.perm.mem_iff.mp (List.mem_map_of_mem hentry))

section Steps

variable {fields next : SharedNodeFields α}

/-- Opening a relationship of a new identity adds its Share, and a state that nothing has
happened to. -/
theorem applyAddShare_topology {ids : Nat → ObjId} {eventId : ObjId} {link : Ref Link}
    {access : UInt8} (hunique : SharesUnique fields.shares)
    (hmatch : StatesMatch fields.shares fields.linkSyncStates)
    (hids : ∀ n, (ids n).isValid = true)
    (h : fields.applyAddShare ids eventId link access = .ok next) :
    next.shares = fields.shares ++ [⟨eventId, link, access⟩] ∧
      (∃ stateId, next.linkSyncStates =
        fields.linkSyncStates ++ [⟨stateId, some (.fresh eventId link.id)⟩]) ∧
      SharesUnique next.shares ∧ StatesMatch next.shares next.linkSyncStates := by
  obtain ⟨hlink, hvalid, hclosed, hunshared, index, hfind, hnext⟩ :=
    applyAddShare_eq_ok_iff.mp h
  have habsent : syncCount fields.linkSyncStates eventId = 0 := by
    rw [hmatch.count]
    exact hclosed
  rw [findLinkSyncIndexForShare_of_absent hmatch.usable habsent] at hfind
  cases hfind
  rw [if_neg (Nat.lt_irrefl _)] at hnext
  subst hnext
  let entry : Ref LinkSyncState :=
    ⟨ids (2 * fields.created.length), some (.fresh eventId link.id)⟩
  refine ⟨rfl, ⟨_, rfl⟩, ⟨?_, ?_, ?_⟩, ?_, ?_⟩
  · intro share hshare
    rcases List.mem_append.mp hshare with hold | hnew
    · exact hunique.linkValid share hold
    · rw [List.mem_singleton.mp hnew]
      exact hlink
  · show ((fields.shares ++ [(⟨eventId, link, access⟩ : Share)]).map
      fun share => share.link.id).Nodup
    rw [List.map_append, List.nodup_append]
    refine ⟨hunique.links, by simp, ?_⟩
    intro id hid other hother
    rw [List.mem_map] at hid
    obtain ⟨share, hshare, rfl⟩ := hid
    rw [List.map_singleton, List.mem_singleton] at hother
    subst hother
    have hne := (List.findIdx_eq_length.mp hunshared) share hshare
    simpa [hunique.linkValid share hshare] using hne
  · show ((fields.shares ++ [_]).map Share.shareId).Nodup
    rw [List.map_append, List.nodup_append]
    refine ⟨hunique.ids, by simp, ?_⟩
    intro id hid other hother
    rw [List.map_singleton, List.mem_singleton] at hother
    subst hother
    intro hsame
    have hopen := shareCount_pos_iff.mpr hid
    rw [hsame] at hopen
    exact Nat.lt_irrefl 0 (hclosed ▸ hopen)
  · intro other hother
    rcases List.mem_append.mp hother with hold | hnew
    · exact hmatch.usable other hold
    · rw [List.mem_singleton.mp hnew]
      exact ⟨hids _, rfl⟩
  · intro id
    show syncCount (fields.linkSyncStates ++ [entry]) id =
      shareCount (fields.shares ++ [⟨eventId, link, access⟩]) id
    rw [syncCount_append, shareCount_append, hmatch.count, syncCount_cons, shareCount_cons]
    simp [syncCount, shareCount, entry, syncKey, LinkSyncState.fresh]

/-- Closing an open relationship removes its Share and its state. -/
theorem applyRemoveShare_topology {share : Share} (hunique : SharesUnique fields.shares)
    (hmatch : StatesMatch fields.shares fields.linkSyncStates) (hshare : share ∈ fields.shares)
    (h : fields.applyRemoveShare share.shareId = .ok next) :
    next.shares = fields.shares.filter (fun other => decide (other.link.id ≠ share.link.id)) ∧
      next.linkSyncStates = (fields.linkSyncStates.filter fun entry =>
        decide (syncKey entry ∈ (next.shares.map Share.shareId).map some)) ∧
      SharesUnique next.shares ∧ StatesMatch next.shares next.linkSyncStates ∧
      shareCount next.shares share.shareId = 0 := by
  obtain ⟨hopen, index, hfind, hnext⟩ := applyRemoveShare_eq_ok_iff.mp h
  rw [findLinkSyncIndexForShare_eq_findIdx hmatch.usable] at hfind
  cases hfind
  have hkeys : (fields.linkSyncStates.map syncKey).Nodup :=
    hmatch.perm.nodup_iff.mpr (hunique.ids.map (Option.some_injective _))
  have hsame : fields.shares.eraseIdx (findShareIndexForShare fields.shares share.shareId) =
      fields.shares.filter (fun other => decide (other.link.id ≠ share.link.id)) := by
    rw [findShareIndexForShare, eraseIdx_findIdx_eq_filter hunique.ids]
    refine List.filter_congr fun other hother => ?_
    -- Two Shares of one Link are one Share.
    have hiff : other.shareId = share.shareId ↔ other.link.id = share.link.id := by
      constructor
      · intro hid
        rw [List.inj_on_of_nodup_map hunique.ids hother hshare hid]
      · intro hid
        rw [List.inj_on_of_nodup_map hunique.links hother hshare hid]
    simp [hiff]
  rw [hsame, eraseIdx_findIdx_eq_filter hkeys] at hnext
  subst hnext
  have hsublist : (fields.shares.filter
      (fun other => decide (other.link.id ≠ share.link.id))).Sublist fields.shares :=
    List.filter_sublist
  have hleft : ∀ id, shareCount (fields.shares.filter
      (fun other => decide (other.link.id ≠ share.link.id))) id =
      if share.shareId = id then shareCount fields.shares id - 1
      else shareCount fields.shares id := by
    intro id
    rw [← hsame]
    exact shareCount_eraseIdx hopen id
  have hshut : shareCount (fields.shares.filter
      (fun other => decide (other.link.id ≠ share.link.id))) share.shareId = 0 := by
    have hone := hunique.shareCount_le_one share.shareId
    rw [hleft, if_pos rfl]
    omega
  have hmatched : StatesMatch
      (fields.shares.filter (fun other => decide (other.link.id ≠ share.link.id)))
      (fields.linkSyncStates.filter
        (fun entry => decide (syncKey entry ≠ some share.shareId))) := by
    constructor
    case usable => exact fun entry hentry => hmatch.usable entry (List.mem_of_mem_filter hentry)
    case count =>
      intro id
      have hone := hunique.shareCount_le_one id
      rw [hleft, ← hmatch.count]
      rw [← hmatch.count] at hone
      by_cases hid : share.shareId = id
      · rw [if_pos hid, syncCount, List.countP_filter, List.countP_eq_zero.mpr]
        · omega
        · simp [hid]
      · rw [if_neg hid, syncCount, List.countP_filter, syncCount]
        refine List.countP_congr fun entry _ => ?_
        simp only [Bool.and_eq_true, decide_eq_true_eq, and_iff_left_iff_imp]
        rintro hkey hother
        rw [hkey] at hother
        exact hid (Option.some.inj hother).symm
  refine ⟨rfl, filter_eq_filter_open hmatched ?_, ⟨?_, ?_, ?_⟩, hmatched, hshut⟩
  · intro entry hentry hdropped hopen
    have hkey : syncKey entry = some share.shareId := by simpa using hdropped
    rw [hkey, List.mem_map_of_injective (Option.some_injective _)] at hopen
    exact Nat.lt_irrefl 0 (hshut ▸ shareCount_pos_iff.mpr hopen)
  · intro other hother
    exact hunique.linkValid other (hsublist.subset hother)
  · exact hunique.links.sublist (hsublist.map _)
  · exact hunique.ids.sublist (hsublist.map _)

/-- Changing the access of a relationship changes nothing else. -/
theorem applyChangeShareAccess_topology {shareId : ObjId} {access : UInt8}
    (hunique : SharesUnique fields.shares)
    (hmatch : StatesMatch fields.shares fields.linkSyncStates)
    (h : fields.applyChangeShareAccess shareId access = .ok next) :
    next.shares.map (fun share => (share.shareId, share.link)) =
        fields.shares.map (fun share => (share.shareId, share.link)) ∧
      next.linkSyncStates = fields.linkSyncStates ∧
      SharesUnique next.shares ∧ StatesMatch next.shares next.linkSyncStates := by
  obtain ⟨-, rfl⟩ := applyChangeShareAccess_eq_ok_iff.mp h
  have hsame : (fields.shares.modify (findShareIndexForShare fields.shares shareId)
        fun share => { share with access := access }).map
          (fun share => (share.shareId, share.link)) =
      fields.shares.map (fun share => (share.shareId, share.link)) := by
    refine List.ext_getElem? fun i => ?_
    rw [List.getElem?_map, List.getElem?_map, List.getElem?_modify]
    cases fields.shares[i]? with
    | none => rfl
    | some share =>
        simp only [Option.map_eq_map, Option.map_some]
        split <;> rfl
  have hids : ∀ shares : List Share, shares.map Share.shareId =
      (shares.map fun share => (share.shareId, share.link)).map Prod.fst := by
    intro shares
    rw [List.map_map]
    rfl
  have hlinks : ∀ shares : List Share, shares.map Share.link =
      (shares.map fun share => (share.shareId, share.link)).map Prod.snd := by
    intro shares
    rw [List.map_map]
    rfl
  have hlinkIds : ∀ shares : List Share, (shares.map fun share => share.link.id) =
      (shares.map Share.link).map Ref.id := by
    intro shares
    rw [List.map_map]
    rfl
  refine ⟨hsame, rfl, ⟨?_, ?_, ?_⟩, hmatch.usable, ?_⟩
  · intro share hshare
    have hmem : share.link ∈ fields.shares.map Share.link := by
      rw [hlinks, ← hsame, ← hlinks]
      exact List.mem_map_of_mem hshare
    obtain ⟨other, hother, hlink⟩ := List.mem_map.mp hmem
    rw [← hlink]
    exact hunique.linkValid other hother
  · rw [hlinkIds, hlinks, hsame, ← hlinks, ← hlinkIds]
    exact hunique.links
  · rw [hids, hsame, ← hids]
    exact hunique.ids
  · intro id
    rw [shareCount_modify_access]
    exact hmatch.count id

end Steps

/-- A replay over the stash of all open relationships that ends with the same Shares ends
with exactly the stash. -/
theorem states_eq_of_statesOverStash {fields fields' : SharedNodeFields α}
    {own : List (Ref LinkSyncState)} (hmatch : StatesMatch fields.shares fields.linkSyncStates)
    (h : StatesOverStash fields.linkSyncStates own fields')
    (hshares : fields'.shares = fields.shares) :
    fields'.linkSyncStates = fields.linkSyncStates := by
  have hnone : own = [] := by
    rw [List.eq_nil_iff_forall_not_mem]
    intro entry hentry
    obtain ⟨state, -, hkey⟩ := exists_syncKey h.usable hentry
    have hpos : 0 < syncCount own state.shareId :=
      List.countP_pos_iff.mpr ⟨entry, hentry, by simpa using hkey⟩
    obtain ⟨habsent, hopen, -⟩ := h.own_open state.shareId hpos
    rw [hshares, ← hmatch.count] at hopen
    omega
  rw [h.states_eq, hnone, List.append_nil]

/-- The stash of a Node with usable states is all of them. -/
theorem loadBase_eq (app : AppClass α ε) (ids : Nat → ObjId) {fields : SharedNodeFields α}
    (husable : StatesUsable fields.linkSyncStates) (snapshot : BaseSnapshot α) :
    ((app.nodeClass ids).loadBase fields snapshot).shared = snapshot.toSharedState ∧
      ((app.nodeClass ids).loadBase fields snapshot).linkSyncStates =
        fields.linkSyncStates := by
  refine ⟨rfl, ?_⟩
  show fields.linkSyncStates.filter Ref.isValid = fields.linkSyncStates
  rw [List.filter_eq_self]
  exact fun entry hentry => (husable entry hentry).1

end AppTraverse
