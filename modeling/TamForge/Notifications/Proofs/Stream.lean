import Mathlib.Data.List.Pairwise
import TamForge.Notifications.Repository

/-!
# What the status stream sends

The client receives rows once and in increasing order, whatever the workers do.
A row that is published at or below the cursor is never sent; every other row is
sent as long as polling goes on.
-/

namespace TamForge.Notifications

open Models ProofSupport

variable {zones : Zones} {ownerId : Nat} {now : Instant} {delivery next : Delivery}
  {event : DeliveryEvent} {rows : List OutboxEvent}

/-! ## One batch -/

def OutboxEvent.publishIn (now : Instant) (ids : List Nat) (row : OutboxEvent) : OutboxEvent :=
  if row.id ∈ ids then row.publish now else row

@[simp] theorem publishIn_id (ids : List Nat) (row : OutboxEvent) :
    (row.publishIn now ids).id = row.id := by
  unfold OutboxEvent.publishIn
  split <;> rfl

@[simp] theorem publishIn_ownerId (ids : List Nat) (row : OutboxEvent) :
    (row.publishIn now ids).ownerId = row.ownerId := by
  unfold OutboxEvent.publishIn
  split <;> rfl

theorem publishIn_publishedAt (ids : List Nat) (row : OutboxEvent) :
    (row.publishIn now ids).publishedAt.isSome =
      (decide (row.id ∈ ids) || row.publishedAt.isSome) := by
  unfold OutboxEvent.publishIn
  split
  · rename_i hmem
    simp [hmem, OutboxEvent.publish]
  · rename_i hmem
    simp [hmem]

variable {row : OutboxEvent}

theorem deliverEvent_rows (store : Store) (hids : (store.rows.map OutboxEvent.id).Nodup)
    (hrow : row ∈ store.rows) :
    (deliverEvent zones now store row).rows = store.rows.map (·.publishIn now [row.id]) := by
  change Table.modify OutboxEvent.id store.rows row.id (fun _ => row.publish now) = _
  apply List.map_congr_left
  intro other ho
  by_cases hsame : other.id = row.id
  · have heq := List.inj_on_of_nodup_map hids ho hrow hsame
    subst heq
    simp [OutboxEvent.publishIn]
  · simp [OutboxEvent.publishIn, hsame]

theorem deliverBatch_rows {batch : List OutboxEvent} (store : Store)
    (hids : (store.rows.map OutboxEvent.id).Nodup) (hheld : ∀ row ∈ batch, row ∈ store.rows)
    (hbatch : (batch.map OutboxEvent.id).Nodup) :
    (deliverBatch zones now batch store).rows =
      store.rows.map (·.publishIn now (batch.map OutboxEvent.id)) := by
  induction batch generalizing store with
  | nil =>
    rw [deliverBatch, List.foldl_nil]
    conv_lhs => rw [← List.map_id store.rows]
    apply List.map_congr_left
    intro row _
    simp [OutboxEvent.publishIn]
  | cons first rest ih =>
    rw [List.map_cons, List.nodup_cons] at hbatch
    have hfst : (deliverEvent zones now store first).rows =
        store.rows.map (·.publishIn now [first.id]) :=
      deliverEvent_rows store hids (hheld first (List.mem_cons_self ..))
    have hcol : (store.rows.map (·.publishIn now [first.id])).map OutboxEvent.id =
        store.rows.map OutboxEvent.id := by
      rw [List.map_map]
      exact List.map_congr_left fun row _ => publishIn_id [first.id] row
    have hrest : ∀ row ∈ rest, row ∈ (deliverEvent zones now store first).rows := by
      intro row hrow
      rw [hfst]
      refine List.mem_map.mpr ⟨row, hheld row (List.mem_cons_of_mem _ hrow), ?_⟩
      have hne : row.id ≠ first.id := by
        intro hsame
        exact hbatch.1 (hsame ▸ List.mem_map_of_mem hrow)
      simp [OutboxEvent.publishIn, hne]
    have hfold := ih (deliverEvent zones now store first) (by rw [hfst, hcol]; exact hids)
      hrest hbatch.2
    change (deliverBatch zones now rest (deliverEvent zones now store first)).rows = _
    rw [hfold, hfst, List.map_map]
    apply List.map_congr_left
    intro row _
    simp only [Function.comp_apply, OutboxEvent.publishIn, List.map_cons, List.mem_cons,
      List.not_mem_nil, or_false]
    by_cases hsame : row.id = first.id
    · have hlat : (row.publish now).id ∉ rest.map OutboxEvent.id := by
        change row.id ∉ _
        rw [hsame]
        exact hbatch.1
      simp only [hsame, true_or, if_true, if_neg hlat]
    · simp only [hsame, false_or, if_false]

/-! ## Rows and locks -/

/-- Identities are distinct, open rows are not published, and each batch holds
rows that are not published and that no other batch holds. -/
structure Ordered (delivery : Delivery) : Prop where
  ids : ((delivery.store.rows ++ delivery.uncommitted).map OutboxEvent.id).Nodup
  bound : ∀ row ∈ delivery.store.rows ++ delivery.uncommitted, row.id < delivery.nextId
  fresh : ∀ row ∈ delivery.uncommitted, row.publishedAt = none
  held : ∀ batch ∈ delivery.batches, ∀ row ∈ batch.events,
    row ∈ delivery.store.rows ∧ row.publishedAt = none
  locks : delivery.locked.Nodup
  workers : (delivery.batches.map Batch.worker).Nodup

theorem Ordered.rowIds (h : Ordered delivery) :
    (delivery.store.rows.map OutboxEvent.id).Nodup := by
  have hids := h.ids
  rw [List.map_append, List.nodup_append] at hids
  exact hids.1

theorem Ordered.batchIds (h : Ordered delivery) {batch : Batch}
    (hbatch : batch ∈ delivery.batches) : (batch.events.map OutboxEvent.id).Nodup :=
  (List.nodup_flatMap.mp h.locks).1 batch hbatch

theorem Ordered.disjoint (h : Ordered delivery) {batch other : Batch}
    (hbatch : batch ∈ delivery.batches) (ho : other ∈ delivery.batches)
    (hworker : other.worker ≠ batch.worker) (hrow : row ∈ other.events) :
    row.id ∉ batch.events.map OutboxEvent.id := by
  have hpairwise := (List.nodup_flatMap.mp h.locks).2
  have hne : batch ≠ other := by
    rintro rfl
    exact hworker rfl
  have hsymm : Std.Symm (Function.onFun List.Disjoint fun batch : Batch =>
      batch.events.map OutboxEvent.id) := ⟨fun _ _ hlocks _ hright hleft => hlocks hleft hright⟩
  have hdisj := hpairwise.forall hbatch ho hne
  intro hmem
  exact hdisj hmem (List.mem_map_of_mem hrow)

theorem Ordered.delivered_rows (h : Ordered delivery) {batch : Batch}
    (hbatch : batch ∈ delivery.batches) :
    (deliverBatch zones now batch.events delivery.store).rows =
      delivery.store.rows.map (·.publishIn now (batch.events.map OutboxEvent.id)) :=
  deliverBatch_rows delivery.store h.rowIds (fun row hrow => (h.held batch hbatch row hrow).1)
    (h.batchIds hbatch)

theorem nodup_locked_filter {batches : List Batch}
    (h : (batches.flatMap fun batch => batch.events.map OutboxEvent.id).Nodup)
    (p : Batch → Bool) :
    ((batches.filter p).flatMap fun batch => batch.events.map OutboxEvent.id).Nodup := by
  rw [List.nodup_flatMap] at h ⊢
  exact ⟨fun batch hbatch => h.1 batch (List.mem_of_mem_filter hbatch),
    h.2.sublist List.filter_sublist⟩

theorem mem_selectBatch {locked : List Nat} {limit : Nat} (h : row ∈ selectBatch locked limit rows)
    : row ∈ rows ∧ row.publishedAt = none ∧ row.id ∉ locked := by
  have hmem := (List.mem_insertionSort _).mp (List.mem_of_mem_take h)
  obtain ⟨hrow, hopen⟩ := List.mem_filter.mp hmem
  simp only [Bool.and_eq_true, Option.isNone_iff_eq_none, Bool.not_eq_true',
    List.contains_eq_mem, decide_eq_false_iff_not] at hopen
  exact ⟨hrow, hopen.1, hopen.2⟩

theorem nodup_selectBatch (hids : (rows.map OutboxEvent.id).Nodup) (locked : List Nat)
    (limit : Nat) : ((selectBatch locked limit rows).map OutboxEvent.id).Nodup := by
  have hsort := List.perm_insertionSort deliversBefore
    (rows.filter fun row => row.publishedAt.isNone && !locked.contains row.id)
  have hfiltd : ((rows.filter fun row => row.publishedAt.isNone &&
      !locked.contains row.id).map OutboxEvent.id).Nodup :=
    hids.sublist (List.filter_sublist.map _)
  have hall := ((hsort.map OutboxEvent.id).nodup_iff).mpr hfiltd
  exact hall.sublist ((List.take_sublist _ _).map _)

theorem Ordered.step (h : Ordered delivery) (hstep : DeliveryStep zones ownerId delivery event next) :
    Ordered next := by
  cases hstep with
  | @inserted row identity unpublished =>
    constructor
    · rw [← List.append_assoc]
      apply Table.nodup_insert h.ids
      intro other ho hsame
      have hlt := h.bound other ho
      omega
    · intro other ho
      change other.id < delivery.nextId + 1
      rw [← List.append_assoc] at ho
      rcases List.mem_append.mp ho with hold | hnew
      · have hlt := h.bound other hold
        omega
      · rw [List.mem_singleton.mp hnew]
        omega
    · intro other ho
      rcases List.mem_append.mp ho with hold | hnew
      · exact h.fresh other hold
      · rw [List.mem_singleton.mp hnew]
        exact unpublished
    · exact h.held
    · exact h.locks
    · exact h.workers
  | @committed row open_ =>
    have hperm : (delivery.store.rows ++ [row] ++
        delivery.uncommitted.filter fun other => other.id != row.id).Perm
        (delivery.store.rows ++ delivery.uncommitted) := by
      have hids := h.ids
      rw [List.map_append, List.nodup_append] at hids
      have hrow := Table.filter_unique hids.2.1 open_ rfl
      have hspl := List.filter_append_perm (fun other => other.id == row.id)
        delivery.uncommitted
      rw [hrow] at hspl
      rw [List.append_assoc]
      exact hspl.append_left _
    constructor
    · exact ((hperm.map _).nodup_iff).mpr h.ids
    · exact fun other ho => h.bound other (hperm.mem_iff.mp ho)
    · exact fun other ho => h.fresh other (List.mem_of_mem_filter ho)
    · intro batch hbatch other ho
      have hheld := h.held batch hbatch other ho
      exact ⟨List.mem_append_left _ hheld.1, hheld.2⟩
    · exact h.locks
    · exact h.workers
  | @rolledBack row open_ =>
    have hsub : (delivery.store.rows ++
        delivery.uncommitted.filter fun other => other.id != row.id).Sublist
        (delivery.store.rows ++ delivery.uncommitted) :=
      List.Sublist.append_left List.filter_sublist _
    constructor
    · exact h.ids.sublist (hsub.map _)
    · exact fun other ho => h.bound other (hsub.subset ho)
    · exact fun other ho => h.fresh other (List.mem_of_mem_filter ho)
    · exact h.held
    · exact h.locks
    · exact h.workers
  | @locked worker limit positive bounded idle =>
    constructor
    · exact h.ids
    · exact h.bound
    · exact h.fresh
    · intro batch hbatch row hrow
      rcases List.mem_append.mp hbatch with hold | hnew
      · exact h.held batch hold row hrow
      · rw [List.mem_singleton.mp hnew] at hrow
        have hsel := mem_selectBatch hrow
        exact ⟨hsel.1, hsel.2.1⟩
    · change ((delivery.batches ++ [_]).flatMap _).Nodup
      rw [List.flatMap_append, List.flatMap_singleton, List.nodup_append]
      refine ⟨h.locks, nodup_selectBatch h.rowIds _ _, ?_⟩
      intro id hid other ho heq
      subst heq
      obtain ⟨row, hrow, rfl⟩ := List.mem_map.mp ho
      exact (mem_selectBatch hrow).2.2 hid
    · exact Table.nodup_insert h.workers idle
  | @delivered batch now held =>
    have hrows : (deliverBatch zones now batch.events delivery.store).rows =
        delivery.store.rows.map (·.publishIn now (batch.events.map OutboxEvent.id)) :=
      h.delivered_rows held
    have hcol : ((deliverBatch zones now batch.events delivery.store).rows ++
        delivery.uncommitted).map OutboxEvent.id =
        (delivery.store.rows ++ delivery.uncommitted).map OutboxEvent.id := by
      rw [hrows, List.map_append, List.map_append, List.map_map]
      congr 1
      exact List.map_congr_left fun row _ => publishIn_id _ row
    constructor
    · rw [hcol]
      exact h.ids
    · intro row hrow
      have hid : row.id ∈ (delivery.store.rows ++ delivery.uncommitted).map OutboxEvent.id := by
        rw [← hcol]
        exact List.mem_map_of_mem hrow
      obtain ⟨old, hold, hsame⟩ := List.mem_map.mp hid
      rw [← hsame]
      exact h.bound old hold
    · exact h.fresh
    · intro other ho row hrow
      obtain ⟨hmem, hworker⟩ := List.mem_filter.mp ho
      have hheld := h.held other hmem row hrow
      have hfree := h.disjoint held hmem (bne_iff_ne.mp hworker) hrow
      refine ⟨?_, hheld.2⟩
      rw [hrows]
      refine List.mem_map.mpr ⟨row, hheld.1, ?_⟩
      rw [OutboxEvent.publishIn, if_neg hfree]
    · exact nodup_locked_filter h.locks _
    · exact h.workers.sublist (List.filter_sublist.map _)
  | @released batch held =>
    constructor
    · exact h.ids
    · exact h.bound
    · exact h.fresh
    · intro other ho
      exact h.held other (List.mem_of_mem_filter ho)
    · exact nodup_locked_filter h.locks _
    · exact h.workers.sublist (List.filter_sublist.map _)
  | polled sent => exact ⟨h.ids, h.bound, h.fresh, h.held, h.locks, h.workers⟩

/-! ## One round of the stream -/

def waiting (ownerId cursor : Nat) (rows : List OutboxEvent) : List OutboxEvent :=
  (rows.filter (·.unseen ownerId cursor)).insertionSort fun first second => first.id ≤ second.id

theorem mem_waiting {cursor : Nat} :
    row ∈ waiting ownerId cursor rows ↔ row ∈ rows ∧ row.ownerId = ownerId ∧
      row.publishedAt.isSome = true ∧ cursor < row.id := by
  rw [waiting, List.mem_insertionSort, List.mem_filter, OutboxEvent.unseen, Bool.and_eq_true,
    Bool.and_eq_true, beq_iff_eq, decide_eq_true_eq, and_assoc]

theorem waiting_increasing (hids : (rows.map OutboxEvent.id).Nodup) (cursor : Nat) :
    (waiting ownerId cursor rows).Pairwise fun first second => first.id < second.id := by
  have htot : Std.Total fun first second : OutboxEvent => first.id ≤ second.id :=
    ⟨fun first second => Nat.le_total first.id second.id⟩
  have htrans : IsTrans OutboxEvent fun first second => first.id ≤ second.id :=
    ⟨fun _ _ _ => Nat.le_trans⟩
  have hsort : (waiting ownerId cursor rows).Pairwise fun first second =>
      first.id ≤ second.id := List.pairwise_insertionSort _ _
  have hperm := List.perm_insertionSort (fun first second : OutboxEvent => first.id ≤ second.id)
    (rows.filter (·.unseen ownerId cursor))
  have hnd : ((waiting ownerId cursor rows).map OutboxEvent.id).Nodup :=
    ((hperm.map _).nodup_iff).mpr (hids.sublist (List.filter_sublist.map _))
  have hdist := List.pairwise_map.mp hnd
  refine (hsort.and hdist).imp ?_
  rintro first second ⟨hle, hne⟩
  omega

/-- What one round sends. -/
def sentRows (ownerId sent : Nat) (delivery : Delivery) : List OutboxEvent :=
  (waiting ownerId delivery.cursor delivery.store.rows).take (min sent 100)

theorem poll_eq (ownerId sent : Nat) (delivery : Delivery) :
    delivery.poll ownerId sent = delivery.send (sentRows ownerId sent delivery) := by
  rw [Delivery.poll, listStatusEvents, List.take_take]
  rfl

theorem send_cursor (delivery : Delivery) (evs : List OutboxEvent) :
    (evs = [] ∧ (delivery.send evs).cursor = delivery.cursor) ∨
      ∃ last ∈ evs, evs.getLast? = some last ∧ (delivery.send evs).cursor = last.id := by
  cases hlast : evs.getLast? with
  | none =>
    left
    refine ⟨List.getLast?_eq_none_iff.mp hlast, ?_⟩
    simp [Delivery.send, hlast]
  | some last =>
    right
    refine ⟨last, List.mem_of_getLast? hlast, rfl, ?_⟩
    simp [Delivery.send, hlast]

variable {last : OutboxEvent}

theorem le_last {evs : List OutboxEvent}
    (hincr : evs.Pairwise fun first second => first.id < second.id)
    (hlast : evs.getLast? = some last) (hrow : row ∈ evs) : row.id ≤ last.id := by
  obtain ⟨init, rfl⟩ := List.getLast?_eq_some_iff.mp hlast
  rcases List.mem_append.mp hrow with hinit | hend
  · rw [List.pairwise_append] at hincr
    exact Nat.le_of_lt (hincr.2.2 row hinit last (List.mem_singleton.mpr rfl))
  · rw [List.mem_singleton.mp hend]

theorem mem_sentRows (hids : (delivery.store.rows.map OutboxEvent.id).Nodup) {sent : Nat}
    (hlast : (sentRows ownerId sent delivery).getLast? = some last)
    (hrow : row ∈ waiting ownerId delivery.cursor delivery.store.rows) (hle : row.id ≤ last.id) :
    row ∈ sentRows ownerId sent delivery := by
  have hincr : (waiting ownerId delivery.cursor delivery.store.rows).Pairwise
      fun first second => first.id < second.id := waiting_increasing hids _
  rw [← List.take_append_drop (min sent 100)
    (waiting ownerId delivery.cursor delivery.store.rows)] at hrow hincr
  rw [List.pairwise_append] at hincr
  rcases List.mem_append.mp hrow with hsent | hkept
  · exact hsent
  · have hlt := hincr.2.2 last (List.mem_of_getLast? hlast) row hkept
    omega

/-- What the client received: increasing, up to its cursor, and published rows
of the owner. -/
structure Received (ownerId : Nat) (delivery : Delivery) : Prop where
  ordered : Ordered delivery
  increasing : delivery.received.Pairwise (· < ·)
  below : ∀ id ∈ delivery.received, id ≤ delivery.cursor
  published : ∀ id ∈ delivery.received, ∃ row ∈ delivery.store.rows, row.id = id ∧
    row.ownerId = ownerId ∧ row.publishedAt.isSome = true

theorem published_persists (h : Ordered delivery)
    (hstep : DeliveryStep zones ownerId delivery event next) (hrow : row ∈ delivery.store.rows)
    (hpub : row.publishedAt.isSome = true) :
    ∃ kept ∈ next.store.rows, kept.id = row.id ∧ kept.ownerId = row.ownerId ∧
      kept.publishedAt.isSome = true := by
  cases hstep with
  | committed open_ => exact ⟨row, List.mem_append_left _ hrow, rfl, rfl, hpub⟩
  | @delivered batch now held =>
    refine ⟨row.publishIn now (batch.events.map OutboxEvent.id), ?_, publishIn_id _ row,
      publishIn_ownerId _ row, ?_⟩
    · change _ ∈ (deliverBatch zones now batch.events delivery.store).rows
      rw [h.delivered_rows held]
      exact List.mem_map_of_mem hrow
    · rw [publishIn_publishedAt, hpub, Bool.or_true]
  | inserted | rolledBack | locked | released | polled =>
    exact ⟨row, hrow, rfl, rfl, hpub⟩

theorem client_moves (hstep : DeliveryStep zones ownerId delivery event next) :
    (next.cursor = delivery.cursor ∧ next.received = delivery.received) ∨
      ∃ sent, event = .polled sent ∧ next = delivery.send (sentRows ownerId sent delivery) := by
  cases hstep with
  | polled sent => exact Or.inr ⟨sent, rfl, poll_eq ownerId sent delivery⟩
  | inserted | committed | rolledBack | locked | delivered | released =>
    exact Or.inl ⟨rfl, rfl⟩

theorem Received.step (h : Received ownerId delivery)
    (hstep : DeliveryStep zones ownerId delivery event next) : Received ownerId next := by
  have hord := h.ordered.step hstep
  have hpersist : ∀ id ∈ delivery.received, ∃ row ∈ next.store.rows, row.id = id ∧
      row.ownerId = ownerId ∧ row.publishedAt.isSome = true := by
    intro id hid
    obtain ⟨row, hrow, hrowId, hown, hpub⟩ := h.published id hid
    obtain ⟨kept, hkept, hkeptId, hkeptOwn, hkeptPub⟩ :=
      published_persists h.ordered hstep hrow hpub
    exact ⟨kept, hkept, hkeptId.trans hrowId, hkeptOwn.trans hown, hkeptPub⟩
  rcases client_moves hstep with ⟨hcursor, hrecv⟩ | ⟨sent, rfl, rfl⟩
  · refine ⟨hord, ?_, ?_, ?_⟩
    · rw [hrecv]
      exact h.increasing
    · rw [hrecv, hcursor]
      exact h.below
    · rw [hrecv]
      exact hpersist
  · have hincr : (sentRows ownerId sent delivery).Pairwise fun first second =>
        first.id < second.id :=
      (waiting_increasing h.ordered.rowIds _).sublist (List.take_sublist _ _)
    have hsent : ∀ row ∈ sentRows ownerId sent delivery, row ∈ delivery.store.rows ∧
        row.ownerId = ownerId ∧ row.publishedAt.isSome = true ∧ delivery.cursor < row.id :=
      fun row hrow => mem_waiting.mp (List.mem_of_mem_take hrow)
    refine ⟨hord, ?_, ?_, ?_⟩
    · change (delivery.received ++ _).Pairwise _
      rw [List.pairwise_append]
      refine ⟨h.increasing, List.pairwise_map.mpr hincr, ?_⟩
      intro id hid other ho
      obtain ⟨row, hrow, rfl⟩ := List.mem_map.mp ho
      exact Nat.lt_of_le_of_lt (h.below id hid) (hsent row hrow).2.2.2
    · intro id hid
      rcases send_cursor delivery (sentRows ownerId sent delivery) with
        ⟨hnone, hcursor⟩ | ⟨last, hlastMem, hlast, hcursor⟩
      · rw [hcursor]
        rw [hnone, Delivery.send, List.map_nil, List.append_nil] at hid
        exact h.below id hid
      · rw [hcursor]
        rcases List.mem_append.mp hid with hold | hnew
        · exact Nat.le_of_lt (Nat.lt_of_le_of_lt (h.below id hold) (hsent last hlastMem).2.2.2)
        · obtain ⟨row, hrow, rfl⟩ := List.mem_map.mp hnew
          exact le_last hincr hlast hrow
    · intro id hid
      rcases List.mem_append.mp hid with hold | hnew
      · exact hpersist id hold
      · obtain ⟨row, hrow, rfl⟩ := List.mem_map.mp hnew
        obtain ⟨hmem, hown, hpub, -⟩ := hsent row hrow
        exact ⟨row, hmem, rfl, hown, hpub⟩

/-! ## Rows behind the cursor -/

/-- The step publishes no row of the owner at or below what the client received
last. -/
def Ahead (ownerId : Nat) (step : Transition Delivery DeliveryEvent) : Prop :=
  match step.label with
  | .delivered worker => ∀ batch ∈ step.before.batches, batch.worker = worker →
      ∀ row ∈ batch.events, row.ownerId = ownerId → step.before.cursor < row.id
  | .inserted _ | .committed _ | .rolledBack _ | .locked _ _ | .released _ | .polled _ => True

def Complete (ownerId : Nat) (delivery : Delivery) : Prop :=
  ∀ row ∈ delivery.store.rows, row.ownerId = ownerId → row.publishedAt.isSome = true →
    row.id ≤ delivery.cursor → row.id ∈ delivery.received

theorem Complete.step (h : Complete ownerId delivery) (hord : Ordered delivery)
    (hahead : Ahead ownerId ⟨delivery, event, next⟩)
    (hstep : DeliveryStep zones ownerId delivery event next) : Complete ownerId next := by
  cases hstep with
  | @committed row open_ =>
    intro other ho hown hpub hle
    rcases List.mem_append.mp ho with hold | hnew
    · exact h other hold hown hpub hle
    · rw [List.mem_singleton.mp hnew, hord.fresh row open_] at hpub
      cases hpub
  | @delivered batch now held =>
    intro row hrow hown hpub hle
    change row ∈ (deliverBatch zones now batch.events delivery.store).rows at hrow
    rw [hord.delivered_rows held] at hrow
    obtain ⟨old, hold, rfl⟩ := List.mem_map.mp hrow
    rw [publishIn_ownerId] at hown
    rw [publishIn_publishedAt] at hpub
    rw [publishIn_id] at hle ⊢
    by_cases hmem : old.id ∈ batch.events.map OutboxEvent.id
    · obtain ⟨event, hev, hid⟩ := List.mem_map.mp hmem
      have heq := List.inj_on_of_nodup_map hord.rowIds
        (hord.held batch held event hev).1 hold hid
      have hlt := hahead batch held rfl event hev (heq ▸ hown)
      change delivery.cursor < event.id at hlt
      change old.id ≤ delivery.cursor at hle
      omega
    · simp only [hmem, decide_false, Bool.false_or] at hpub
      exact h old hold hown hpub hle
  | polled sent =>
    rw [poll_eq]
    intro row hrow hown hpub hle
    by_cases hseen : row.id ≤ delivery.cursor
    · exact List.mem_append_left _ (h row hrow hown hpub hseen)
    · have hwait : row ∈ waiting ownerId delivery.cursor delivery.store.rows :=
        mem_waiting.mpr ⟨hrow, hown, hpub, by omega⟩
      rcases send_cursor delivery (sentRows ownerId sent delivery) with
        ⟨-, hcursor⟩ | ⟨last, hlastMem, hlast, hcursor⟩
      · rw [hcursor] at hle
        omega
      · rw [hcursor] at hle
        apply List.mem_append_right
        exact List.mem_map_of_mem (mem_sentRows hord.rowIds hlast hwait hle)
  | inserted | rolledBack | locked | released => exact h

/-- A published row that the client will not receive any more. -/
def Lost (ownerId id : Nat) (delivery : Delivery) : Prop :=
  id ≤ delivery.cursor ∧ id ∉ delivery.received ∧
    ∃ row ∈ delivery.store.rows, row.id = id ∧ row.ownerId = ownerId ∧
      row.publishedAt.isSome = true

variable {id : Nat}

theorem Lost.step (h : Lost ownerId id delivery) (hrecv : Received ownerId delivery)
    (hstep : DeliveryStep zones ownerId delivery event next) : Lost ownerId id next := by
  obtain ⟨hbelow, hmis, row, hrow, hid, hown, hpub⟩ := h
  obtain ⟨kept, hkept, hkeptId, hkeptOwn, hkeptPub⟩ :=
    published_persists hrecv.ordered hstep hrow hpub
  have hrow : ∃ row ∈ next.store.rows, row.id = id ∧ row.ownerId = ownerId ∧
      row.publishedAt.isSome = true :=
    ⟨kept, hkept, hkeptId.trans hid, hkeptOwn.trans hown, hkeptPub⟩
  rcases client_moves hstep with ⟨hcursor, hsame⟩ | ⟨sent, rfl, rfl⟩
  · exact ⟨hcursor ▸ hbelow, hsame ▸ hmis, hrow⟩
  · have hsent : ∀ row ∈ sentRows ownerId sent delivery, delivery.cursor < row.id :=
      fun row hrow => (mem_waiting.mp (List.mem_of_mem_take hrow)).2.2.2
    refine ⟨?_, ?_, hrow⟩
    · rcases send_cursor delivery (sentRows ownerId sent delivery) with
        ⟨-, hcursor⟩ | ⟨last, hlastMem, -, hcursor⟩
      · rw [hcursor]
        exact hbelow
      · rw [hcursor]
        exact Nat.le_of_lt (Nat.lt_of_le_of_lt hbelow (hsent last hlastMem))
    · intro hmem
      rcases List.mem_append.mp hmem with hold | hnew
      · exact hmis hold
      · obtain ⟨other, ho, hsame⟩ := List.mem_map.mp hnew
        have hlt := hsent other ho
        omega

theorem lost_of_not_ahead (hrecv : Received ownerId delivery)
    (hstep : DeliveryStep zones ownerId delivery event next)
    (hbehind : ¬ Ahead ownerId ⟨delivery, event, next⟩) : ∃ id, Lost ownerId id next := by
  cases hstep with
  | @delivered batch now held =>
    simp only [Ahead, not_forall, not_lt] at hbehind
    obtain ⟨other, ho, hworker, row, hrow, hown, hle⟩ := hbehind
    have heq := List.inj_on_of_nodup_map hrecv.ordered.workers ho held hworker
    subst heq
    obtain ⟨hmem, hopen⟩ := hrecv.ordered.held other ho row hrow
    have hrowId : row.id ∈ other.events.map OutboxEvent.id := List.mem_map_of_mem hrow
    refine ⟨row.id, hle, ?_, row.publishIn now (other.events.map OutboxEvent.id), ?_,
      publishIn_id _ row, ?_, ?_⟩
    · intro hseen
      obtain ⟨twin, htwin, hsame, -, hpub⟩ := hrecv.published row.id hseen
      have heq := List.inj_on_of_nodup_map hrecv.ordered.rowIds htwin hmem hsame
      rw [heq, hopen] at hpub
      cases hpub
    · change _ ∈ (deliverBatch zones now other.events delivery.store).rows
      rw [hrecv.ordered.delivered_rows held]
      exact List.mem_map_of_mem hmem
    · rw [publishIn_ownerId]
      exact hown
    · rw [publishIn_publishedAt, decide_eq_true hrowId, Bool.true_or]
  | inserted | committed | rolledBack | locked | released | polled =>
    exact absurd trivial hbehind

/-! ## Polling until nothing waits -/

/-- The state after `rounds` rounds that were not cut off. -/
def drain (ownerId rounds : Nat) (delivery : Delivery) : Delivery :=
  (Delivery.poll ownerId 100)^[rounds] delivery

theorem drain_succ (rounds : Nat) :
    drain ownerId (rounds + 1) delivery = (drain ownerId rounds delivery).poll ownerId 100 :=
  Function.iterate_succ_apply' _ _ _

theorem drain_store (rounds : Nat) : (drain ownerId rounds delivery).store = delivery.store := by
  induction rounds with
  | zero => rfl
  | succ rounds ih =>
    rw [drain_succ]
    exact ih

theorem drain_run (rounds : Nat) :
    ∃ trace, Run (DeliveryStep zones ownerId) delivery trace (drain ownerId rounds delivery) ∧
      ∀ step ∈ trace, Ahead ownerId step := by
  induction rounds with
  | zero => exact ⟨[], Run.refl, by simp⟩
  | succ rounds ih =>
    obtain ⟨trace, hrun, hahead⟩ := ih
    rw [drain_succ]
    refine ⟨_, hrun.snoc (DeliveryStep.polled 100), ?_⟩
    intro step hstep
    rcases List.mem_append.mp hstep with hold | hnew
    · exact hahead step hold
    · rw [List.mem_singleton.mp hnew]
      trivial

theorem length_waiting (cursor : Nat) :
    (waiting ownerId cursor rows).length = (rows.filter (·.unseen ownerId cursor)).length :=
  List.length_insertionSort _ _

theorem waiting_poll_lt
    (hsome : 0 < (waiting ownerId delivery.cursor delivery.store.rows).length) :
    (waiting ownerId (delivery.poll ownerId 100).cursor delivery.store.rows).length <
      (waiting ownerId delivery.cursor delivery.store.rows).length := by
  have hsent : sentRows ownerId 100 delivery ≠ [] := by
    intro hnone
    have hlen := congrArg List.length hnone
    rw [sentRows, List.length_take, List.length_nil] at hlen
    omega
  rw [poll_eq]
  rcases send_cursor delivery (sentRows ownerId 100 delivery) with
    ⟨hnone, -⟩ | ⟨last, hlastMem, -, hcursor⟩
  · exact absurd hnone hsent
  · obtain ⟨hrow, hown, hpub, hlt⟩ := mem_waiting.mp (List.mem_of_mem_take hlastMem)
    have hsub : ∀ row : OutboxEvent, row.unseen ownerId last.id = true →
        row.unseen ownerId delivery.cursor = true := by
      intro row hunseen
      simp only [OutboxEvent.unseen, Bool.and_eq_true, decide_eq_true_eq] at hunseen ⊢
      exact ⟨hunseen.1, hlt.trans hunseen.2⟩
    have hfilt : delivery.store.rows.filter (·.unseen ownerId last.id) =
        (delivery.store.rows.filter (·.unseen ownerId delivery.cursor)).filter
          (·.unseen ownerId last.id) := by
      rw [List.filter_filter]
      apply List.filter_congr
      intro row _
      by_cases hunseen : row.unseen ownerId last.id = true
      · simp [hunseen, hsub row hunseen]
      · simp [hunseen]
    have hgone : last ∈ delivery.store.rows.filter (·.unseen ownerId delivery.cursor) := by
      simp only [List.mem_filter, OutboxEvent.unseen, Bool.and_eq_true, beq_iff_eq,
        decide_eq_true_eq]
      exact ⟨hrow, ⟨hown, hpub⟩, hlt⟩
    rw [hcursor, length_waiting, length_waiting, hfilt,
      List.length_filter_lt_length_iff_exists]
    exact ⟨last, hgone, by simp [OutboxEvent.unseen]⟩

theorem drain_waiting (rounds : Nat) :
    (waiting ownerId (drain ownerId rounds delivery).cursor delivery.store.rows).length ≤
      delivery.store.rows.length - rounds := by
  induction rounds with
  | zero =>
    rw [length_waiting]
    exact List.length_filter_le _ _
  | succ rounds ih =>
    by_cases hsome : 0 < (waiting ownerId (drain ownerId rounds delivery).cursor
        (drain ownerId rounds delivery).store.rows).length
    · have hlt := waiting_poll_lt hsome
      rw [drain_store] at hlt
      rw [drain_succ]
      omega
    · rw [drain_store] at hsome
      have hnone : waiting ownerId (drain ownerId rounds delivery).cursor
          delivery.store.rows = [] := List.length_eq_zero_iff.mp (by omega)
      have hstill : (drain ownerId (rounds + 1) delivery).cursor =
          (drain ownerId rounds delivery).cursor := by
        rw [drain_succ, poll_eq, sentRows, drain_store, hnone, List.take_nil]
        rfl
      rw [hstill, hnone]
      exact Nat.zero_le _

section Runs

variable {timezones : List (Nat × String)} {trace : List (Transition Delivery DeliveryEvent)}
  {start : Delivery}

theorem received_empty : Received ownerId (emptyDelivery timezones) where
  ordered := {
    ids := List.nodup_nil
    bound := by simp [emptyDelivery]
    fresh := by simp [emptyDelivery]
    held := by simp [emptyDelivery]
    locks := List.nodup_nil
    workers := List.nodup_nil }
  increasing := List.Pairwise.nil
  below := by simp [emptyDelivery]
  published := by simp [emptyDelivery]

theorem Received.run (h : Received ownerId start)
    (hrun : Run (DeliveryStep zones ownerId) start trace delivery) :
    Received ownerId delivery :=
  hrun.state_invariant h fun _ _ _ hrecv hstep => hrecv.step hstep

theorem Lost.run (h : Lost ownerId id start) (hrecv : Received ownerId start)
    (hrun : Run (DeliveryStep zones ownerId) start trace delivery) : Lost ownerId id delivery := by
  have key := hrun.state_invariant (I := fun s => Received ownerId s ∧ Lost ownerId id s)
    ⟨hrecv, h⟩ fun _ _ _ hboth hstep =>
      ⟨hboth.1.step hstep, hboth.2.step hboth.1 hstep⟩
  exact key.2

theorem Complete.run (hrun : Run (DeliveryStep zones ownerId) (emptyDelivery timezones) trace
      delivery) (hahead : ∀ step ∈ trace, Ahead ownerId step) : Complete ownerId delivery := by
  induction hrun with
  | refl =>
    intro row hrow
    cases hrow
  | @snoc earlier before after label hrun hstep ih =>
    have hearl : ∀ step ∈ earlier, Ahead ownerId step :=
      fun step hmem => hahead step (List.mem_append_left _ hmem)
    have hlast := hahead ⟨before, label, after⟩
      (List.mem_append_right _ (List.mem_singleton.mpr rfl))
    exact (ih hearl).step (received_empty.run hrun).ordered hlast hstep

/-- Polling to the end after a run, the client has received every published row
of the owner exactly when no row was published behind its cursor. -/
theorem stream_complete_iff (hrun : Run (DeliveryStep zones ownerId) (emptyDelivery timezones)
    trace delivery) {rounds : Nat} (hrounds : delivery.store.rows.length ≤ rounds) :
    (∀ row ∈ (drain ownerId rounds delivery).store.rows, row.ownerId = ownerId →
      row.publishedAt.isSome = true → row.id ∈ (drain ownerId rounds delivery).received) ↔
      ∀ step ∈ trace, Ahead ownerId step := by
  obtain ⟨polls, hpolls, haheadPolls⟩ : ∃ polls,
      Run (DeliveryStep zones ownerId) delivery polls (drain ownerId rounds delivery) ∧
        ∀ step ∈ polls, Ahead ownerId step := drain_run rounds
  constructor
  · intro hall step hmem
    by_contra hbehind
    obtain ⟨before, after, -, hb, hstep, ha⟩ := hrun.split hmem
    have hrecv := received_empty.run hb
    obtain ⟨id, hlost⟩ := lost_of_not_ahead hrecv hstep hbehind
    have hend := hlost.run (hrecv.step hstep) (ha.append hpolls)
    obtain ⟨-, hmis, row, hrow, hid, hown, hpub⟩ := hend
    exact hmis (hid ▸ hall row hrow hown hpub)
  · intro hahead row hrow hown hpub
    have hcompl : Complete ownerId (drain ownerId rounds delivery) := by
      refine Complete.run (hrun.append hpolls) ?_
      intro step hmem
      rcases List.mem_append.mp hmem with hleft | hright
      · exact hahead step hleft
      · exact haheadPolls step hright
    refine hcompl row hrow hown hpub ?_
    by_contra hpast
    have hwait : row ∈ waiting ownerId (drain ownerId rounds delivery).cursor
        delivery.store.rows := by
      rw [drain_store] at hrow
      exact mem_waiting.mpr ⟨hrow, hown, hpub, by omega⟩
    have hlen : (waiting ownerId (drain ownerId rounds delivery).cursor
        delivery.store.rows).length ≤ delivery.store.rows.length - rounds :=
      drain_waiting rounds
    have hpos := List.length_pos_of_mem hwait
    omega

/-! ## Nothing is lost -/

/-- The client has every published row of the owner exactly once, in increasing
order, and nothing else. -/
def DeliveredAll (ownerId : Nat) (delivery : Delivery) : Prop :=
  delivery.received.Pairwise (· < ·) ∧
    ∀ id, id ∈ delivery.received ↔ ∃ row ∈ delivery.store.rows, row.id = id ∧
      row.ownerId = ownerId ∧ row.publishedAt.isSome = true

/-- When the client polls on until nothing waits, it has received every
published row of the owner once and in order if and only if no batch published
one of them at or below its cursor. -/
theorem stream_delivers_all_iff (hrun : Run (DeliveryStep zones ownerId)
      (emptyDelivery timezones) trace delivery) (rounds : Nat)
    (hrounds : delivery.store.rows.length ≤ rounds) :
    DeliveredAll ownerId (drain ownerId rounds delivery) ↔
      ∀ step ∈ trace, Ahead ownerId step := by
  obtain ⟨polls, hpolls, -⟩ : ∃ polls,
      Run (DeliveryStep zones ownerId) delivery polls (drain ownerId rounds delivery) ∧
        ∀ step ∈ polls, Ahead ownerId step := drain_run rounds
  have hreceived : Received ownerId (drain ownerId rounds delivery) :=
    received_empty.run (hrun.append hpolls)
  rw [← stream_complete_iff hrun hrounds]
  constructor
  · intro hall row hrow howner hpublished
    exact (hall.2 row.id).mpr ⟨row, hrow, rfl, howner, hpublished⟩
  · intro hcomplete
    refine ⟨hreceived.increasing, fun id => ⟨hreceived.published id, ?_⟩⟩
    rintro ⟨row, hrow, rfl, howner, hpublished⟩
    exact hcomplete row hrow howner hpublished

def sampleEvent (id : Nat) : OutboxEvent where
  id := id
  ownerId := 7
  aggregateType := "activity"
  aggregateId := 3
  eventType := "activity.completed"
  payloadSchemaVersion := 1
  payload := ⟨1, 3, none⟩
  occurredAt := 10
  publishedAt := none
  attempts := 0
  idempotencyKey := "key"

def twoInserted : Delivery :=
  { emptyDelivery [] with nextId := 3, uncommitted := [sampleEvent 1, sampleEvent 2] }

def secondCommitted : Delivery :=
  { twoInserted with
    store := ⟨[sampleEvent 2], .empty, []⟩
    uncommitted := [sampleEvent 1] }

def secondLocked : Delivery :=
  { secondCommitted with batches := [⟨1, [sampleEvent 2]⟩] }

def secondPublished : Delivery :=
  { secondCommitted with store := ⟨[(sampleEvent 2).publish 20], .empty, []⟩ }

def secondRead : Delivery :=
  { secondPublished with cursor := 2, received := [2] }

def firstCommitted : Delivery :=
  { secondRead with
    store := ⟨[(sampleEvent 2).publish 20, sampleEvent 1], .empty, []⟩
    uncommitted := [] }

def firstLocked : Delivery :=
  { firstCommitted with batches := [⟨1, [sampleEvent 1]⟩] }

def firstPublished : Delivery :=
  { firstCommitted with
    store := ⟨[(sampleEvent 2).publish 20, (sampleEvent 1).publish 30], .empty, []⟩ }

theorem second_read_run : ∃ trace,
    Run (DeliveryStep (fun _ => none) 7) (emptyDelivery []) trace secondRead ∧
      ∀ step ∈ trace, Ahead 7 step := by
  have hfst : DeliveryStep (fun _ => none) 7 (emptyDelivery []) (.inserted 1)
      { emptyDelivery [] with nextId := 2, uncommitted := [sampleEvent 1] } :=
    @DeliveryStep.inserted _ _ _ (sampleEvent 1) rfl rfl
  have hsec : DeliveryStep (fun _ => none) 7
      { emptyDelivery [] with nextId := 2, uncommitted := [sampleEvent 1] } (.inserted 2)
      twoInserted := @DeliveryStep.inserted _ _ _ (sampleEvent 2) rfl rfl
  have hcom : DeliveryStep (fun _ => none) 7 twoInserted (.committed 2) secondCommitted :=
    @DeliveryStep.committed _ _ _ (sampleEvent 2) (by decide)
  have hlock : DeliveryStep (fun _ => none) 7 secondCommitted (.locked 1 100) secondLocked :=
    DeliveryStep.locked (by decide) (by decide)
      (by simp [secondCommitted, twoInserted, emptyDelivery])
  have hdeliver : DeliveryStep (fun _ => none) 7 secondLocked (.delivered 1) secondPublished :=
    @DeliveryStep.delivered _ _ _ ⟨1, [sampleEvent 2]⟩ 20 (List.mem_singleton.mpr rfl)
  have hpoll : DeliveryStep (fun _ => none) 7 secondPublished (.polled 100) secondRead :=
    DeliveryStep.polled 100
  refine ⟨_, (((((Run.single hfst).snoc hsec).snoc hcom).snoc hlock).snoc
    hdeliver).snoc hpoll, ?_⟩
  simp [Ahead]
  decide

/-- The run up to the second event keeps ahead of the client. -/
theorem stream_delivers_all_second : ∃ trace,
    Run (DeliveryStep (fun _ => none) 7) (emptyDelivery []) trace secondRead ∧
      DeliveredAll 7 (drain 7 1 secondRead) := by
  obtain ⟨trace, hrun, hahead⟩ := second_read_run
  exact ⟨trace, hrun, (stream_delivers_all_iff hrun 1 (by decide)).mpr hahead⟩

/-- The first event commits after the second was read: however long the client
polls, it does not get it. -/
theorem stream_loses_first : ∃ trace,
    Run (DeliveryStep (fun _ => none) 7) (emptyDelivery []) trace firstPublished ∧
      ∀ rounds, ¬ DeliveredAll 7 (drain 7 rounds firstPublished) := by
  obtain ⟨trace, hrun, -⟩ := second_read_run
  have hcommit : DeliveryStep (fun _ => none) 7 secondRead (.committed 1) firstCommitted :=
    @DeliveryStep.committed _ _ _ (sampleEvent 1) (by decide)
  have hlock : DeliveryStep (fun _ => none) 7 firstCommitted (.locked 1 100) firstLocked :=
    DeliveryStep.locked (by decide) (by decide)
      (by simp [firstCommitted, secondRead, secondPublished, secondCommitted, twoInserted,
        emptyDelivery])
  have hdeliver : DeliveryStep (fun _ => none) 7 firstLocked (.delivered 1) firstPublished :=
    @DeliveryStep.delivered _ _ _ ⟨1, [sampleEvent 1]⟩ 30 (List.mem_singleton.mpr rfl)
  have hwhole := ((hrun.snoc hcommit).snoc hlock).snoc hdeliver
  refine ⟨_, hwhole, ?_⟩
  intro rounds hall
  have hlost : Lost 7 1 firstPublished :=
    ⟨by decide, by decide, (sampleEvent 1).publish 30, by decide, rfl, rfl, rfl⟩
  obtain ⟨polls, hpolls, -⟩ : ∃ polls, Run (DeliveryStep (fun _ => none) 7) firstPublished polls
      (drain 7 rounds firstPublished) ∧ ∀ step ∈ polls, Ahead 7 step := drain_run rounds
  obtain ⟨-, hmissing, hrow⟩ := hlost.run (received_empty.run hwhole) hpolls
  exact hmissing ((hall.2 1).mpr hrow)

end Runs

end TamForge.Notifications
