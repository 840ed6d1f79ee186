import LakeFsAuth.Authz.Service
import LakeFsAuth.Authz.Store.UserTable

/-! Claimed token ids under concurrent requests. The claim and the cleanup are one step of
the store each, so a history of the store is a list of them in some order. -/
namespace LakeFsAuth.Authz.TokenIds
open Std Core.Error Core.Model Store Store.Mem Api Library Library.Program Library.OrderedMap

/-- The recorded expiries that `now` has reached. -/
def expired (s : Inner) (now : Timestamp) : List (String × Timestamp) :=
  s.claimedTokenIds.toList.filter fun entry => decide (entry.2.nanos ≤ now.nanos)

theorem claimTokenId_cases (s : Inner) (tokenId : String) (expiresAt : Timestamp) :
    (s.claimedTokenIds[tokenId]? = none ∧ s.claimTokenId tokenId expiresAt =
      (.ok (), { s with claimedTokenIds := s.claimedTokenIds.insert tokenId expiresAt })) ∨
    ((∃ recorded, s.claimedTokenIds[tokenId]? = some recorded) ∧ s.claimTokenId tokenId expiresAt =
      (.error (.alreadyExists "token id" tokenId), s)) := by
  unfold Inner.claimTokenId
  cases hclaimed : s.claimedTokenIds.contains tokenId with
  | true => exact .inr ⟨(contains_iff _ _).mp hclaimed, rfl⟩
  | false => exact .inl ⟨(not_contains_iff _ _).mp hclaimed, rfl⟩

theorem deleteExpiredTokenIds_get (s : Inner) (now : Timestamp) (tokenId : String) :
    (s.deleteExpiredTokenIds now).2.claimedTokenIds[tokenId]? =
      s.claimedTokenIds[tokenId]?.filter fun expires => decide (now.nanos < expires.nanos) :=
  get_retain _ _ _

/-- The count is that of the entries that go. -/
theorem deleteExpiredTokenIds_count (s : Inner) (now : Timestamp) :
    (s.deleteExpiredTokenIds now).1 = (expired s now).length := by
  have hkept : (s.claimedTokenIds.filter fun _ expires =>
      decide (now.nanos < expires.nanos)).size =
      (s.claimedTokenIds.toList.filter fun entry =>
        !decide (entry.2.nanos ≤ now.nanos)).length := by
    rw [← ExtTreeMap.length_toList, ExtTreeMap.toList_filter]
    congr 1
    apply List.filter_congr
    intro entry _
    rw [Bool.eq_iff_iff]
    simp
  have hsplit := List.length_eq_length_filter_add (l := s.claimedTokenIds.toList)
    fun entry => decide (entry.2.nanos ≤ now.nanos)
  rw [ExtTreeMap.length_toList] at hsplit
  unfold Inner.deleteExpiredTokenIds expired
  dsimp only
  rw [hkept]
  omega

/-- A claim stays recorded until a cleanup at or after its expiry. -/
theorem exec_keeps_claim {s : Inner} {op : StoreOp} {tokenId : String} {expiresAt : Timestamp}
    (early : ∀ now, op = .deleteExpiredTokenIds now → now.nanos < expiresAt.nanos)
    (claimed : s.claimedTokenIds[tokenId]? = some expiresAt) :
    (Inner.exec op s).2.claimedTokenIds[tokenId]? = some expiresAt := by
  by_cases hwrites : Table.claimedTokenIds ∈ writes op
  · cases op with
    | claimTokenId other expires =>
      change (s.claimTokenId other expires).2.claimedTokenIds[tokenId]? = _
      rcases claimTokenId_cases s other expires with ⟨free, h⟩ | ⟨_, h⟩
      · rw [h]
        exact Kept.insert expires free tokenId expiresAt claimed
      · rw [h]
        exact claimed
    | deleteExpiredTokenIds now =>
      change (s.deleteExpiredTokenIds now).2.claimedTokenIds[tokenId]? = _
      rw [deleteExpiredTokenIds_get, claimed]
      simp [early now rfl]
    | applyBootstrap plan => exact (s.applyBootstrap_grows plan).claimedTokenIds _ _ claimed
    | _ => simp [writes] at hwrites
  · rw [s.exec_same hwrites]
    exact claimed

/-! What a history of the store shows. -/

section History
variable {ι : Type} (log : List (Record Call.Reply Inner ι))

/-- Between two claims of an id that succeed, a cleanup has removed the first. -/
def SingleUse : Prop :=
  ∀ earlier first between second later, log = earlier ++ first :: (between ++ second :: later) →
    ∀ (tokenId : String) (expiresAt again : Timestamp),
      first.entry = ⟨.store (.claimTokenId tokenId expiresAt), .ok ()⟩ →
      second.entry = ⟨.store (.claimTokenId tokenId again), .ok ()⟩ →
      ∃ record ∈ between, ∃ now removed,
        record.entry = ⟨.store (.deleteExpiredTokenIds now), .ok removed⟩ ∧
          expiresAt.nanos ≤ now.nanos

/-- A cleanup removes what has expired, nothing else, and counts it. -/
def CleanupsExact : Prop :=
  ∀ record ∈ log, ∀ now reply, record.entry = ⟨.store (.deleteExpiredTokenIds now), reply⟩ →
    reply = .ok (expired record.before now).length ∧
      (∀ (tokenId : String) (expiresAt : Timestamp), record.after.claimedTokenIds[tokenId]? = some expiresAt ↔
        record.before.claimedTokenIds[tokenId]? = some expiresAt ∧ now.nanos < expiresAt.nanos) ∧
      record.after = { record.before with claimedTokenIds := record.after.claimedTokenIds }

/-- A claim is refused when the id is recorded, and leaves the store as it was. -/
def RefusalsKeep : Prop :=
  ∀ record ∈ log, ∀ tokenId expiresAt error,
    record.entry = ⟨.store (.claimTokenId tokenId expiresAt), .error error⟩ →
      record.after = record.before ∧
        ∃ recorded, record.before.claimedTokenIds[tokenId]? = some recorded

end History

section Chain
variable {ι : Type} {log : List (Record Call.Reply Inner ι)} {s₀ s : Inner}

theorem exec_of_store (chain : Chain (Call.Exec memStore) s₀ log s)
    {record : Record Call.Reply Inner ι} (hmem : record ∈ log) {op : StoreOp} {reply : op.Reply}
    (hentry : record.entry = ⟨.store op, reply⟩) :
    Inner.exec op record.before = (reply, record.after) := by
  have exec := chain.exec hmem
  rw [hentry] at exec
  exact exec

theorem singleUse (chain : Chain (Call.Exec memStore) s₀ log s) : SingleUse log := by
  intro earlier first between second later hlog tokenId expiresAt again hfirst hsecond
  by_contra hnone
  have hclaim := exec_of_store chain (by simp [hlog]) hfirst
  have hagain := exec_of_store chain (by simp [hlog]) hsecond
  subst hlog
  obtain ⟨start, _, hrest⟩ := chain.append
  obtain ⟨rfl, _, hrest⟩ := hrest.head
  obtain ⟨mid, hbetween, hrest⟩ := hrest.append
  obtain ⟨rfl, _, _⟩ := hrest.head
  have hrecorded : first.after.claimedTokenIds[tokenId]? = some expiresAt := by
    rcases claimTokenId_cases first.before tokenId expiresAt with ⟨_, h⟩ | ⟨_, h⟩
    · have hafter : _ = first.after := congrArg Prod.snd (h.symm.trans hclaim)
      rw [← hafter, get_insert, if_pos rfl]
    · cases congrArg Prod.fst (h.symm.trans hclaim)
  have hstill : second.before.claimedTokenIds[tokenId]? = some expiresAt := by
    apply hbetween.keeps (P := fun s => s.claimedTokenIds[tokenId]? = some expiresAt) ?_ hrecorded
    intro record hrecord exec claimed
    obtain ⟨who, ⟨call, reply⟩, before, after⟩ := record
    cases call with
    | store op =>
      change Inner.exec op before = (reply, after) at exec
      have hkeep : (Inner.exec op before).2.claimedTokenIds[tokenId]? = some expiresAt := by
        apply exec_keeps_claim _ claimed
        intro now hop
        subst hop
        by_contra hpast
        refine hnone ⟨_, hrecord, now, (before.deleteExpiredTokenIds now).1, ?_, by omega⟩
        cases exec
        rfl
      rw [exec] at hkeep
      exact hkeep
    | now => exact exec ▸ claimed
    | attempt request => exact exec ▸ claimed
  rcases claimTokenId_cases second.before tokenId again with ⟨free, _⟩ | ⟨_, h⟩
  · rw [hstill] at free
    cases free
  · cases congrArg Prod.fst (h.symm.trans hagain)

theorem cleanupsExact (chain : Chain (Call.Exec memStore) s₀ log s) : CleanupsExact log := by
  intro record hrecord now reply hentry
  have hexec := exec_of_store chain hrecord hentry
  have hreply : (.ok (record.before.deleteExpiredTokenIds now).1 : StoreResult Nat) = reply :=
    congrArg Prod.fst hexec
  have hafter : (record.before.deleteExpiredTokenIds now).2 = record.after :=
    congrArg Prod.snd hexec
  refine ⟨?_, ?_, ?_⟩
  · rw [← hreply, deleteExpiredTokenIds_count]
  · intro tokenId expiresAt
    rw [← hafter, deleteExpiredTokenIds_get, Option.filter_eq_some_iff]
    simp
  · rw [← hafter]
    rfl

theorem refusalsKeep (chain : Chain (Call.Exec memStore) s₀ log s) : RefusalsKeep log := by
  intro record hrecord tokenId expiresAt error hentry
  have hexec := exec_of_store chain hrecord hentry
  rcases claimTokenId_cases record.before tokenId expiresAt with ⟨_, h⟩ | ⟨hrecorded, h⟩
  · cases congrArg Prod.fst (h.symm.trans hexec)
  · exact ⟨(congrArg Prod.snd (h.symm.trans hexec)).symm, hrecorded⟩

end Chain

/-! The service. -/

/-- Whether a request was given the id of its body. -/
def Granted (calls : List (Entry Call.Reply)) (body : ClaimTokenId) : Prop :=
  ∃ expiresAt, Service.fromUnix "expires_at" body.expiresAt = .ok expiresAt ∧
    ⟨.store (.claimTokenId body.tokenId expiresAt), .ok ()⟩ ∈ calls

/-- A request succeeds exactly when its claim of the id does. -/
theorem claimTokenId_meets (body : ClaimTokenId) :
    Meets (Seen fun _ _ => True) (fun _ _ _ => True)
      (fun calls _ (answer : Except ApiError Unit) => answer = .ok () ↔ Granted calls body)
      (Service.claimTokenId body) [] () := by
  have hnone : ¬ Granted [] body := by simp [Granted]
  unfold Service.claimTokenId
  split
  · exact iff_of_false nofun hnone
  · split
    · exact iff_of_false nofun hnone
    · rename_i expiresAt hunix
      refine ⟨trivial, fun reply _ _ => ?_⟩
      have hgranted : Granted [⟨.store (.claimTokenId body.tokenId expiresAt), reply⟩] body ↔
          reply = .ok () := by
        simp only [Granted, hunix, Except.ok.injEq, exists_eq_left', List.mem_singleton,
          Sigma.mk.injEq, heq_eq_eq, true_and]
        exact eq_comm
      match reply, hgranted with
      | .ok (), hgranted => exact iff_of_true rfl (hgranted.mpr rfl)
      | .error (.AlreadyExists _ _), hgranted =>
        exact iff_of_false nofun fun h => nomatch hgranted.mp h
      | .error (.NotFound _ _), hgranted =>
        exact iff_of_false nofun fun h => nomatch hgranted.mp h
      | .error (.WrongIdentity _ _), hgranted =>
        exact iff_of_false nofun fun h => nomatch hgranted.mp h
      | .error (.Backend _), hgranted =>
        exact iff_of_false nofun fun h => nomatch hgranted.mp h

/-- Token ids are single use, whatever requests and store calls run side by side. -/
theorem tokenIds_single_use [DecidableEq ι] (body : ι → ClaimTokenId) {s₀ s : Inner}
    {log : List (Record Call.Reply Inner ι)} {now : ι → Action (Except ApiError Unit)}
    (pool : Pool (Call.Exec memStore) (fun call => ∃ op, call = .store op)
      (fun i => Service.claimTokenId (body i)) s₀ log now s) :
    SingleUse log ∧ CleanupsExact log ∧ RefusalsKeep log ∧
      ∀ i answer, now i = .done answer → (answer = .ok () ↔ Granted (callsOf i log) (body i)) := by
  refine ⟨singleUse pool.chain, cleanupsExact pool.chain, refusalsKeep pool.chain, ?_⟩
  intro i answer finished
  have lawful : Lawful (Call.Exec memStore) (fun _ => True) (fun _ _ => True) :=
    ⟨fun _ _ => trivial, fun _ _ => trivial⟩
  exact pool.answers lawful trivial (fun i => claimTokenId_meets (body i)) finished

/-- One id is claimed, its expiry passes, a cleanup runs, and it is claimed again. -/
def reclaimed : Moment Call Call.Reply (Except ApiError Unit) Inner Bool :=
  let pick : Program.Pick Call.Reply Inner := Call.pick memStore ⟨0⟩ .answered
  (((Moment.initial (fun _ => Service.claimTokenId ⟨"jti-1", 5⟩) Inner.new).turn false pick).meanwhile
    (.store (.deleteExpiredTokenIds ⟨5000000000⟩)) pick).turn true pick

theorem tokenIds_single_use_reclaimed :
    SingleUse reclaimed.log ∧ CleanupsExact reclaimed.log ∧ RefusalsKeep reclaimed.log ∧
      ∀ i answer, reclaimed.now i = .done answer →
        (answer = .ok () ↔ Granted (callsOf i reclaimed.log) ⟨"jti-1", 5⟩) := by
  have honest := Call.pick_exec memStore ⟨0⟩ .answered
  apply tokenIds_single_use (fun _ => ⟨"jti-1", 5⟩)
  exact ((Moment.Reached.initial.turn false honest).meanwhile ⟨_, rfl⟩ honest).turn true honest

end LakeFsAuth.Authz.TokenIds
