import KalshiAgent.Execution.MovingOrders

/-! Recovery that dies on the way. Each order is committed in a session of its own, so the next
recovery goes on where the last one stopped: every order is decided once, by the listing of the
recovery that reaches it. -/

namespace KalshiAgent

structure Listing where
  allOpen : List ServerOrder
  allClosed : List ServerOrder
  allCancelled : List ServerOrder

def Listing.all (l : Listing) : List ServerOrder := l.allOpen ++ l.allClosed ++ l.allCancelled

/-- The part of a recovery up to its death after `n` commits. A list call that raises is the death
after none. -/
def interruptedRecovery (agent : Agent) (listing : Listing) (n : ℕ) : Agent :=
  let pending := inFlightOrders agent.db
  let (agent, _) := (pending.take n).foldl (fun p item => recoverOrder p.1 listing.all p.2 item)
    (agent, ⟨pending.length, 0, 0, none⟩)
  { agent with risk := .start }

def recoverRow (remote : List ServerOrder) (db : Db) (item : InFlight) : Db :=
  (recoverOrder ⟨db, ⟨none⟩, .start⟩ remote ⟨0, 0, 0, none⟩ item).1.db

def decided : Db → List InFlight → List (List ServerOrder) → Db
  | db, item :: items, remote :: remotes => decided (recoverRow remote db item) items remotes
  | db, _, _ => db

theorem decided_nil (db : Db) (remotes : List (List ServerOrder)) : decided db [] remotes = db := by
  cases remotes <;> rfl

theorem recoverOrder_db (agent : Agent) (remote : List ServerOrder) (summary : RecoverySummary)
    (item : InFlight) :
    (recoverOrder agent remote summary item).1.db = recoverRow remote agent.db item := by
  unfold recoverRow recoverOrder
  cases matchRemote remote item <;> rfl

theorem recoverOrders_db (remote : List ServerOrder) (items : List InFlight)
    (p : Agent × RecoverySummary) :
    (items.foldl (fun p item => recoverOrder p.1 remote p.2 item) p).1.db =
      items.foldl (recoverRow remote) p.1.db := by
  induction items generalizing p with
  | nil => rfl
  | cons item items ih => rw [List.foldl_cons, List.foldl_cons, ih, recoverOrder_db]

theorem interruptedRecovery_db (agent : Agent) (listing : Listing) (n : ℕ) :
    (interruptedRecovery agent listing n).db =
      ((inFlightOrders agent.db).take n).foldl (recoverRow listing.all) agent.db :=
  recoverOrders_db listing.all _ (agent, _)

theorem inFlightOrders_recoverRow (remote : List ServerOrder) (db : Db) (item : InFlight) :
    inFlightOrders (recoverRow remote db item) =
      (inFlightOrders db).filter (fun i => i.clientOrderId ≠ item.clientOrderId) := by
  obtain ⟨change, horders, hchange, _⟩ :=
    recoverOrder_orders ⟨db, ⟨none⟩, .start⟩ remote ⟨0, 0, 0, none⟩ item
  have hrows : (recoverRow remote db item).orders = db.orders.map (fun row =>
      if row.clientOrderId = item.clientOrderId then change row else row) := horders
  unfold inFlightOrders
  rw [hrows]
  induction db.orders with
  | nil => rfl
  | cons row rows ih =>
    rw [List.map_cons]
    by_cases hid : row.clientOrderId = item.clientOrderId
    · rw [if_pos hid, List.filter_cons_of_neg (by simpa using (hchange row).2), ih]
      by_cases hpending : row.status = "pending"
      · rw [List.filter_cons_of_pos (by simpa using hpending), List.map_cons,
          List.filter_cons_of_neg (by simpa using hid)]
      · rw [List.filter_cons_of_neg (by simpa using hpending)]
    · rw [if_neg hid]
      by_cases hpending : row.status = "pending"
      · rw [List.filter_cons_of_pos (by simpa using hpending),
          List.filter_cons_of_pos (by simpa using hpending), List.map_cons, List.map_cons,
          List.filter_cons_of_pos (by simpa using hid), ih]
      · rw [List.filter_cons_of_neg (by simpa using hpending),
          List.filter_cons_of_neg (by simpa using hpending), ih]

theorem ids_recoverRow (remote : List ServerOrder) (db : Db) (item : InFlight) :
    (recoverRow remote db item).orders.map Order.clientOrderId =
      db.orders.map Order.clientOrderId := by
  obtain ⟨change, horders, hchange, _⟩ :=
    recoverOrder_orders ⟨db, ⟨none⟩, .start⟩ remote ⟨0, 0, 0, none⟩ item
  have hrows : (recoverRow remote db item).orders = db.orders.map (fun row =>
      if row.clientOrderId = item.clientOrderId then change row else row) := horders
  rw [hrows, List.map_map]
  refine List.map_congr_left fun row _ => ?_
  rw [Function.comp_apply]
  split_ifs
  · exact (hchange row).1
  · rfl

theorem nodup_inFlightOrders {db : Db} (hunique : (db.orders.map Order.clientOrderId).Nodup) :
    ((inFlightOrders db).map InFlight.clientOrderId).Nodup := by
  have hids : (inFlightOrders db).map InFlight.clientOrderId =
      (db.orders.filter (fun o => o.status = "pending")).map Order.clientOrderId := by
    rw [inFlightOrders, List.map_map]
    rfl
  rw [hids]
  exact hunique.sublist (List.filter_sublist.map _)

theorem inFlightOrders_next {db : Db} {item : InFlight} {items : List InFlight}
    (hunique : (db.orders.map Order.clientOrderId).Nodup)
    (hitems : inFlightOrders db = item :: items) (remote : List ServerOrder) :
    inFlightOrders (recoverRow remote db item) = items := by
  have hnodup := nodup_inFlightOrders hunique
  rw [hitems, List.map_cons, List.nodup_cons] at hnodup
  rw [inFlightOrders_recoverRow, hitems, List.filter_cons_of_neg (by simp), List.filter_eq_self]
  intro other hother
  refine decide_eq_true fun hsame => hnodup.1 ?_
  exact List.mem_map.mpr ⟨other, hother, hsame⟩

/-- One recovery, up to its death: it decides what it reaches, and leaves the rest pending. -/
theorem recoverRows_take (remote : List ServerOrder) (n : ℕ) {db : Db}
    (hunique : (db.orders.map Order.clientOrderId).Nodup) (rest : List (List ServerOrder)) :
    let reached := ((inFlightOrders db).take n).foldl (recoverRow remote) db
    (reached.orders.map Order.clientOrderId).Nodup ∧
      inFlightOrders reached = (inFlightOrders db).drop n ∧
      decided db (inFlightOrders db) (List.replicate n remote ++ rest) =
        decided reached (inFlightOrders reached) rest := by
  induction n generalizing db with
  | zero => exact ⟨hunique, rfl, rfl⟩
  | succ n ih =>
    cases hitems : inFlightOrders db with
    | nil =>
      refine ⟨hunique, hitems, ?_⟩
      rw [List.take_nil, List.foldl_nil, hitems, decided_nil, decided_nil]
    | cons item items =>
      have hnext := inFlightOrders_next hunique hitems remote
      have hrest := @ih (recoverRow remote db item) (by rwa [ids_recoverRow])
      rw [hnext] at hrest
      rw [List.take_succ_cons, List.foldl_cons, List.drop_succ_cons, List.replicate_succ,
        List.cons_append, decided]
      exact hrest

theorem interrupted_db (crashes : List (Listing × ℕ)) (agent : Agent)
    (hunique : (agent.db.orders.map Order.clientOrderId).Nodup) (rest : List (List ServerOrder)) :
    let crashed := crashes.foldl (fun agent crash => interruptedRecovery agent crash.1 crash.2) agent
    (crashed.db.orders.map Order.clientOrderId).Nodup ∧
      inFlightOrders crashed.db = (inFlightOrders agent.db).drop (crashes.map Prod.snd).sum ∧
      decided agent.db (inFlightOrders agent.db)
          (crashes.flatMap (fun crash => List.replicate crash.2 crash.1.all) ++ rest) =
        decided crashed.db (inFlightOrders crashed.db) rest := by
  induction crashes generalizing agent with
  | nil => exact ⟨hunique, rfl, rfl⟩
  | cons crash crashes ih =>
    have hfirst := recoverRows_take crash.1.all crash.2 hunique
      (crashes.flatMap (fun crash => List.replicate crash.2 crash.1.all) ++ rest)
    have hrest := ih (interruptedRecovery agent crash.1 crash.2)
    rw [interruptedRecovery_db] at hrest
    obtain ⟨hunique', hpending, hdecided⟩ := hrest hfirst.1
    refine ⟨hunique', ?_, ?_⟩
    · rw [List.foldl_cons, hpending, hfirst.2.1, List.drop_drop, List.map_cons, List.sum_cons]
    · rw [List.flatMap_cons, List.append_assoc, hfirst.2.2]
      exact hdecided

theorem recoverOrders_summary (remote : List ServerOrder) (items : List InFlight)
    (p : Agent × RecoverySummary) :
    let summary := (items.foldl (fun p item => recoverOrder p.1 remote p.2 item) p).2
    summary.pending = p.2.pending ∧
      summary.recovered + summary.lost = p.2.recovered + p.2.lost + items.length ∧
      summary.error = p.2.error := by
  induction items generalizing p with
  | nil => exact ⟨rfl, rfl, rfl⟩
  | cons item items ih =>
    obtain ⟨hpending, hcount, herror⟩ := ih (recoverOrder p.1 remote p.2 item)
    have hone : (recoverOrder p.1 remote p.2 item).2.pending = p.2.pending ∧
        (recoverOrder p.1 remote p.2 item).2.recovered + (recoverOrder p.1 remote p.2 item).2.lost =
          p.2.recovered + p.2.lost + 1 ∧
        (recoverOrder p.1 remote p.2 item).2.error = p.2.error := by
      unfold recoverOrder
      cases matchRemote remote item with
      | some o => exact ⟨rfl, Nat.add_right_comm _ _ _, rfl⟩
      | none => exact ⟨rfl, rfl, rfl⟩
    refine ⟨hpending.trans hone.1, ?_, herror.trans hone.2.2⟩
    rw [List.foldl_cons, hcount, hone.2.1, List.length_cons]
    omega

theorem recoverInFlightOrders_all (agent : Agent) (listing : Listing)
    (hunique : (agent.db.orders.map Order.clientOrderId).Nodup) :
    let pending := inFlightOrders agent.db
    let recovered :=
      recoverInFlightOrders agent listing.allOpen listing.allClosed listing.allCancelled
    recovered.1.db = decided agent.db pending (List.replicate pending.length listing.all) ∧
      inFlightOrders recovered.1.db = [] ∧ recovered.2.pending = pending.length ∧
      recovered.2.recovered + recovered.2.lost = pending.length := by
  intro pending recovered
  have hdb : recovered.1.db = pending.foldl (recoverRow listing.all) agent.db :=
    recoverOrders_db listing.all pending (agent, _)
  obtain ⟨hpending, hcount, -⟩ := recoverOrders_summary listing.all pending
    (agent, ⟨pending.length, 0, 0, none⟩)
  obtain ⟨-, hleft, hdecided⟩ := recoverRows_take listing.all pending.length hunique []
  rw [List.take_length] at hleft hdecided
  rw [List.drop_length] at hleft
  rw [hleft, decided_nil, List.append_nil] at hdecided
  exact ⟨hdb.trans hdecided.symm, hdb ▸ hleft, hpending, hcount.trans (Nat.zero_add _)⟩

theorem decided_replicate (remote : List ServerOrder) {items : List InFlight} {n : ℕ}
    (h : items.length ≤ n) (db : Db) :
    decided db items (List.replicate n remote) =
      decided db items (List.replicate items.length remote) := by
  induction items generalizing n db with
  | nil => rw [decided_nil, decided_nil]
  | cons item items ih =>
    obtain ⟨n, rfl⟩ := Nat.exists_eq_add_of_le' (Nat.le_trans (Nat.succ_pos _) h)
    rw [List.length_cons, List.replicate_succ, List.replicate_succ, decided, decided]
    exact ih (Nat.le_of_succ_le_succ h) _

theorem replicate_crashes {crashes : List (Listing × ℕ)} {remote : List ServerOrder}
    (hsame : ∀ crash ∈ crashes, crash.1.all = remote) :
    crashes.flatMap (fun crash => List.replicate crash.2 crash.1.all) =
      List.replicate (crashes.map Prod.snd).sum remote := by
  induction crashes with
  | nil => rfl
  | cons crash crashes ih =>
    rw [List.flatMap_cons, ih fun c hc => hsame c (List.mem_cons_of_mem _ hc),
      hsame crash List.mem_cons_self, List.map_cons, List.sum_cons, List.replicate_add]

/-- However often recoveries die, and wherever, before one goes through: the tables are as if every
order had been decided once, by the listing of the recovery that reached it. In particular nothing
is pending in the end, and where all listings are the same the tables are those of one recovery
that was not cut off. -/
theorem recovery_restartable (agent : Agent) (crashes : List (Listing × ℕ)) (last : Listing)
    (hunique : (agent.db.orders.map Order.clientOrderId).Nodup) :
    let crashed := crashes.foldl (fun agent crash => interruptedRecovery agent crash.1 crash.2) agent
    let pending := inFlightOrders agent.db
    let recovered := recoverInFlightOrders crashed last.allOpen last.allClosed last.allCancelled
    recovered.1.db = decided agent.db pending
        (crashes.flatMap (fun crash => List.replicate crash.2 crash.1.all) ++
          List.replicate pending.length last.all) ∧
      inFlightOrders recovered.1.db = [] ∧
      recovered.2.recovered + recovered.2.lost = pending.length - (crashes.map Prod.snd).sum ∧
      ((∀ crash ∈ crashes, crash.1.all = last.all) → recovered.1.db =
        (recoverInFlightOrders agent last.allOpen last.allClosed last.allCancelled).1.db) := by
  intro crashed pending recovered
  obtain ⟨hunique', hleft, hdecided⟩ := interrupted_db crashes agent hunique
    (List.replicate pending.length last.all)
  obtain ⟨hdb, hnone, -, hcount⟩ := recoverInFlightOrders_all crashed last hunique'
  have hshort : (inFlightOrders crashed.db).length ≤ pending.length := by
    rw [hleft, List.length_drop]
    exact Nat.sub_le _ _
  have hall : recovered.1.db = decided agent.db pending
      (crashes.flatMap (fun crash => List.replicate crash.2 crash.1.all) ++
        List.replicate pending.length last.all) := by
    rw [hdecided, decided_replicate last.all hshort]
    exact hdb
  refine ⟨hall, hnone, ?_, fun hsame => ?_⟩
  · rw [hcount, hleft, List.length_drop]
  · have hwhole := (recoverInFlightOrders_all agent last hunique).1
    rw [hall, replicate_crashes hsame, ← List.replicate_add,
      decided_replicate last.all (Nat.le_add_left _ _)]
    exact hwhole.symm

theorem recovery_restartable_once :
    let agent : Agent := ⟨{ Db.empty with orders := [pendingRow "c1", pendingRow "c2"] }, ⟨none⟩, .start⟩
    let first : Listing := ⟨[⟨"k1", "c1", .resting⟩], [], []⟩
    let second : Listing := ⟨[], [⟨"k1", "c1", .executed⟩, ⟨"k2", "c2", .executed⟩], []⟩
    let crashed := interruptedRecovery agent first 1
    let recovered := recoverInFlightOrders crashed second.allOpen second.allClosed second.allCancelled
    recovered.1.db = decided agent.db (inFlightOrders agent.db) [first.all, second.all, second.all] ∧
      recovered.1.db.orders.map Order.status = ["resting", "executed"] := by
  intro agent first second crashed recovered
  have hrestarted := recovery_restartable agent [(first, 1)] second (by decide)
  exact ⟨hrestarted.1, (congrArg (fun db => db.orders.map Order.status) hrestarted.1).trans (by decide)⟩

end KalshiAgent
