import ZkStellar.Registry.Abstract
import Mathlib.Data.List.Dedup

set_option autoImplicit false

/-! # What the registry's event list says

An event carries a flag and the hash of the inputs, neither the circuit nor the caller. Read through
the abstract registry, the success events of a run stand for claims no two of which are the same
(`LogExact`), so a listener that counts the successes of one inputs hash never counts more than
there are circuits (`success_events`). -/

namespace ZkStellar.Registry

variable {Address : Type} {h : Host}

/-- The ids some transaction registered a key under. -/
def registered (log : List (Tx Address × Outcome Empty Reply)) : List UInt32 :=
  log.filterMap fun entry =>
    match entry.1.call, entry.2 with
    | .registerCircuit id _, .ok _ => some id
    | _, _ => none

theorem registered_append (log log' : List (Tx Address × Outcome Empty Reply)) :
    registered (log ++ log') = registered log ++ registered log' :=
  List.filterMap_append

namespace Abstract

/-! ## The log of accepted claims -/

/-- The claims logged as accepted, in order. -/
def State.claims (a : State Address) : List (UInt32 × List (BytesN 32)) :=
  (a.log.filter Prod.snd).map fun entry => entry.1.claim

@[simp] theorem State.claims_record_false (a : State Address) (item : BatchItem) :
    (a.record item false).claims = a.claims := by
  simp [State.claims, State.record]

@[simp] theorem State.claims_record_true (a : State Address) (item : BatchItem) :
    (a.record item true).claims = a.claims ++ [item.claim] := by
  simp [State.claims, State.record]

/-- The consumed claims are the accepted ones, none was accepted twice, and active circuits and
    accepted claims have ids among `ids`. -/
structure LogExact (ids : List UInt32) (a : State Address) : Prop where
  spent : ∀ claim, claim ∈ a.spent ↔ claim ∈ a.claims
  nodup : a.claims.Nodup
  active : ∀ id ∈ a.active, id ∈ ids
  origin : ∀ claim ∈ a.claims, claim.1 ∈ ids

theorem of_verdict_true {a : State Address} {item : BatchItem}
    (hverdict : verdict h a item = some true) : item.id ∈ a.active ∧ item.claim ∉ a.spent := by
  unfold verdict at hverdict
  split at hverdict
  next => cases hverdict
  next hyes => rwa [not_or, not_not] at hyes

/-- A transaction settles the items it submits, or leaves spent claims and log alone and activates
    nothing but the id it registers. -/
theorem exec_cases (a : State Address) (tx : Tx Address) :
    (∃ bs, settle h tx.call.items a = some (bs, (exec h a tx).2)) ∨
      (exec h a tx).2.spent = a.spent ∧ (exec h a tx).2.log = a.log ∧
        ∀ id ∈ (exec h a tx).2.active, id ∈ a.active ∨ id ∈ registered [(tx, (exec h a tx).1)] := by
  obtain ⟨auth, call⟩ := tx
  cases call with
  | proposeAdmin new =>
      refine .inr ?_
      simp only [exec, guarded]
      split <;> exact ⟨rfl, rfl, fun id hid => .inl hid⟩
  | acceptAdmin =>
      refine .inr ?_
      simp only [exec, guarded]
      split
      · exact ⟨rfl, rfl, fun id hid => .inl hid⟩
      · split <;> exact ⟨rfl, rfl, fun id hid => .inl hid⟩
  | registerCircuit id vk =>
      refine .inr ?_
      simp only [exec, guarded]
      split
      · refine ⟨rfl, rfl, fun id' hid => ?_⟩
        rcases Set.mem_insert_iff.1 hid with rfl | hold
        · exact .inr (by simp [registered])
        · exact .inl hold
      · exact ⟨rfl, rfl, fun id hid => .inl hid⟩
  | removeCircuit id =>
      refine .inr ?_
      simp only [exec, guarded]
      split
      · exact ⟨rfl, rfl, fun id hid => .inl hid.1⟩
      · exact ⟨rfl, rfl, fun id hid => .inl hid⟩
  | verifyProof item =>
      simp only [exec, Call.items, settle]
      cases verdict h a item with
      | none => exact .inr ⟨rfl, rfl, fun id hid => .inl hid⟩
      | some b => exact .inl ⟨[b], rfl⟩
  | verifyBatch batch =>
      simp only [exec, Call.items]
      cases settle h batch a with
      | none => exact .inr ⟨rfl, rfl, fun id hid => .inl hid⟩
      | some r => exact .inl ⟨r.1, rfl⟩

namespace LogExact

variable {ids : List UInt32} {a : State Address}

theorem initial (admin : Address) : LogExact [] (initial admin) where
  spent _ := by simp [Abstract.initial, State.claims]
  nodup := List.nodup_nil
  active _ hid := hid.elim
  origin _ hclaim := by cases hclaim

theorem mono (hlog : LogExact ids a) {ids' : List UInt32} (hsub : ids ⊆ ids') :
    LogExact ids' a where
  spent := hlog.spent
  nodup := hlog.nodup
  active id hid := hsub (hlog.active id hid)
  origin claim hclaim := hsub (hlog.origin claim hclaim)

theorem record (hlog : LogExact ids a) {item : BatchItem} {b : Bool}
    (hverdict : verdict h a item = some b) : LogExact ids (a.record item b) := by
  cases b with
  | false =>
      exact {
        spent := fun claim => by rw [State.claims_record_false]; exact hlog.spent claim
        nodup := by rw [State.claims_record_false]; exact hlog.nodup
        active := hlog.active
        origin := by rw [State.claims_record_false]; exact hlog.origin }
  | true =>
      obtain ⟨hactive, hfresh⟩ := of_verdict_true hverdict
      rw [hlog.spent] at hfresh
      exact {
        spent := fun claim => by
          rw [State.claims_record_true, List.mem_append, ← hlog.spent, List.mem_singleton, or_comm]
          exact Set.mem_insert_iff
        nodup := by
          rw [State.claims_record_true, List.nodup_append']
          refine ⟨hlog.nodup, List.nodup_singleton _, ?_⟩
          intro claim hold hnew
          rw [List.mem_singleton.1 hnew] at hold
          exact hfresh hold
        active := hlog.active
        origin := fun claim hclaim => by
          rw [State.claims_record_true, List.mem_append, List.mem_singleton] at hclaim
          rcases hclaim with hclaim | rfl
          · exact hlog.origin claim hclaim
          · exact hlog.active _ hactive }

theorem settle {batch : List BatchItem} {bs : List Bool} {a' : State Address}
    (hlog : LogExact ids a) (hrun : settle h batch a = some (bs, a')) : LogExact ids a' := by
  induction batch generalizing a bs with
  | nil =>
      cases hrun
      exact hlog
  | cons item batch ih =>
      rw [Abstract.settle] at hrun
      split at hrun
      next => cases hrun
      next b hverdict =>
        obtain ⟨r, hrest, hr⟩ := Option.map_eq_some_iff.1 hrun
        cases hr
        exact ih (hlog.record hverdict) hrest

/-- A transaction keeps the log exact, the ids it registers added. -/
theorem exec (hlog : LogExact ids a) (tx : Tx Address) :
    LogExact (ids ++ registered [(tx, (exec h a tx).1)]) (exec h a tx).2 := by
  have hsub := List.subset_append_left ids (registered [(tx, (Abstract.exec h a tx).1)])
  rcases exec_cases (h := h) a tx with ⟨bs, hsettle⟩ | ⟨hspent, hsame, hactive⟩
  · exact (hlog.settle hsettle).mono hsub
  · have hclaims : (Abstract.exec h a tx).2.claims = a.claims := by rw [State.claims, hsame]; rfl
    exact {
      spent := by rw [hspent, hclaims]; exact hlog.spent
      nodup := by rw [hclaims]; exact hlog.nodup
      active := fun id hid => by
        rcases hactive id hid with hold | hnew
        · exact hsub (hlog.active id hold)
        · exact List.mem_append_right _ hnew
      origin := by rw [hclaims]; exact fun claim hclaim => hsub (hlog.origin claim hclaim) }

end LogExact

/-- After any transactions the log is exact, relative to the ids these registered. -/
theorem logExact_run (h : Host) (admin : Address) (txs : List (Tx Address)) :
    LogExact (registered (txs.zip ((machine h).outcomes (initial admin) txs)))
      ((machine h).run (initial admin) txs) := by
  rw [← Machine.map_trace_eq_zip]
  refine (machine h).run_induction
    (P := fun tr a => LogExact (registered (tr.map fun e => (e.input, e.outcome))) a)
    (LogExact.initial admin) (fun tr a tx hlog => ?_) txs
  rw [List.map_append, registered_append]
  exact hlog.exec tx

end Abstract

/-! ## The contract's events -/

/-- The success events of a state are those of the claims the abstract registry accepted. -/
theorem Represents.successes {items : List BatchItem} {s : State Address}
    {a : Abstract.State Address} (hrep : Represents h items s a) :
    s.events.filter VerificationResult.success
      = a.claims.map fun claim => ⟨true, computeInputsHash h claim.2⟩ := by
  rw [hrep.events, List.filter_map, Abstract.State.claims, List.map_map]
  refine List.map_congr_left fun entry hentry => ?_
  have hsuccess : entry.2 = true := (List.mem_filter.1 hentry).2
  simp [itemEvent, hsuccess, BatchItem.claim]

theorem Represents.length_successes {items : List BatchItem} {s : State Address}
    {a : Abstract.State Address} (hrep : Represents h items s a) (x : BytesN 32) :
    (s.events.filter fun e => e.success ∧ e.inputsHash = x).length
      = ((a.claims.filter fun claim => computeInputsHash h claim.2 = x).map Prod.fst).length := by
  have hsplit : (s.events.filter fun e => e.success ∧ e.inputsHash = x)
      = (s.events.filter VerificationResult.success).filter fun e => e.inputsHash = x := by
    rw [List.filter_filter]
    exact List.filter_congr fun e _ => by simp [Bool.and_comm]
  rw [hsplit, hrep.successes, List.filter_map, List.length_map, List.length_map]
  rfl

/-- Claims of items whose messages do not collide have the same inputs when they have the same
    inputs hash. -/
theorem inputs_eq_of_hash_eq {items : List BatchItem} (hfree : h.CollisionFree (messages h items))
    {a b : BatchItem} (ha : a ∈ items) (hb : b ∈ items)
    (hhash : computeInputsHash h a.publicInputs = computeInputsHash h b.publicInputs) :
    a.publicInputs = b.publicInputs :=
  concatBytes_injective (by norm_num)
    (hfree _ (concatBytes_mem_messages ha) _ (concatBytes_mem_messages hb) hhash)

/-- Different claims with one inputs hash are about different circuits. -/
theorem nodup_ids_of_hash {items : List BatchItem} (hfree : h.CollisionFree (messages h items))
    {claims : List (UInt32 × List (BytesN 32))} (hnodup : claims.Nodup)
    (hitems : ∀ claim ∈ claims, ∃ item ∈ items, item.claim = claim) (x : BytesN 32) :
    ((claims.filter fun claim => computeInputsHash h claim.2 = x).map Prod.fst).Nodup := by
  refine List.Nodup.map_on ?_ (hnodup.filter _)
  intro claim hclaim claim' hclaim' hid
  obtain ⟨hmem, hx⟩ := List.mem_filter.1 hclaim
  obtain ⟨hmem', hx'⟩ := List.mem_filter.1 hclaim'
  obtain ⟨item, hitem, rfl⟩ := hitems claim hmem
  obtain ⟨item', hitem', rfl⟩ := hitems claim' hmem'
  have hhash := (of_decide_eq_true hx).trans (of_decide_eq_true hx').symm
  exact Prod.ext hid (inputs_eq_of_hash_eq hfree hitem hitem' hhash)

/-- **Reading the event list.** After any transactions without collisions there is a duplicate-free
    list of claims, all of circuits some transaction registered, such that the success events are
    those of the claims in order and the stored nullifiers are theirs. So no inputs hash has more
    success events than circuits were registered. -/
theorem success_events (h : Host) (admin : Address) (txs : List (Tx Address))
    (hfree : h.CollisionFree (messages h (itemsOf txs))) :
    let s := (machine h).run (construct admin) txs
    let ids := registered (txs.zip ((machine h).outcomes (construct admin) txs))
    (∃ claims : List (UInt32 × List (BytesN 32)), claims.Nodup ∧ (∀ claim ∈ claims, claim.1 ∈ ids) ∧
      s.events.filter VerificationResult.success
        = claims.map (fun claim => ⟨true, computeInputsHash h claim.2⟩) ∧
      ∀ n, s.isNullifierUsed n = true ↔ n ∈ claims.map (nullifierOf h)) ∧
    ∀ x, (s.events.filter fun e => e.success ∧ e.inputsHash = x).length ≤ ids.dedup.length := by
  intro s ids
  have hstart := represents_initial (h := h) (itemsOf txs) admin
  obtain ⟨houtcomes, hrep⟩ := (simulation hfree).run hstart
    (Machine.guarded_of_forall (submits_itemsOf txs))
  have hlog := Abstract.logExact_run h admin txs
  rw [← houtcomes] at hlog
  have hitems : ∀ claim ∈ ((Abstract.machine h).run (Abstract.initial admin) txs).claims,
      ∃ item ∈ itemsOf txs, item.claim = claim :=
    fun claim hclaim => hrep.spent claim ((hlog.spent claim).2 hclaim)
  refine ⟨⟨_, hlog.nodup, hlog.origin, hrep.successes, fun n => ?_⟩, fun x => ?_⟩
  · rw [hrep.nullifiers, List.mem_map]
    simp only [hlog.spent]
  · rw [hrep.length_successes]
    refine (List.Nodup.subperm (nodup_ids_of_hash hfree hlog.nodup hitems x) ?_).length_le
    intro id hid
    obtain ⟨claim, hclaim, rfl⟩ := List.mem_map.1 hid
    exact List.mem_dedup.2 (hlog.origin claim (List.mem_of_mem_filter hclaim))

/-- One statement submitted three times for the only circuit has one success event. -/
theorem success_events_zeroRun :
    (((machine Host.scalar).run (construct ()) (zeroRun [7, 7, 7])).events.filter fun e =>
        e.success ∧ e.inputsHash = computeInputsHash Host.scalar [.ofNat 32 7]).length ≤ 1 :=
  (success_events Host.scalar () (zeroRun [7, 7, 7]) (by decide +kernel)).2 _

end ZkStellar.Registry
