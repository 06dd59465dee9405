import KalshiAgent.Recovery

/-! Recovery against orders that move. Between the three list calls the exchange goes on; an order
that settles while it is looked for is on a list that comes later, and a later list overrides. -/

namespace KalshiAgent

def recoverInFlightOrders (agent : Agent) (allOpen allClosed allCancelled : List ServerOrder) :
    Agent × RecoverySummary :=
  let pending := inFlightOrders agent.db
  pending.foldl (fun p item => recoverOrder p.1 (allOpen ++ allClosed ++ allCancelled) p.2 item)
    (agent, ⟨pending.length, 0, 0, none⟩)

/-- The three list calls of the machine that stops at every await collect the same orders. -/
theorem listed_threeCalls (items : List InFlight) (allOpen allClosed allCancelled : List ServerOrder) :
    Recovery.listed items [.resting, .executed, .canceled] [] allOpen =
        .listing items [.executed, .canceled] allOpen ∧
      Recovery.listed items [.executed, .canceled] allOpen allClosed =
        .listing items [.canceled] (allOpen ++ allClosed) ∧
      Recovery.listed items [.canceled] (allOpen ++ allClosed) allCancelled =
        .committing items (allOpen ++ allClosed ++ allCancelled) ⟨items.length, 0, 0, none⟩ :=
  ⟨rfl, rfl, rfl⟩

/-- What happens on the exchange: a resting order settles, or an order is new. -/
inductive OrderMove
  | settles (orderId : String) (final : ServerStatus)
  | lands (o : ServerOrder)

def OrderMove.apply (server : List ServerOrder) : OrderMove → List ServerOrder
  | .settles orderId final => server.map (fun o =>
      if o.orderId = orderId ∧ o.status = .resting then { o with status := final } else o)
  | .lands o => server ++ [o]

def serverAfter (server : List ServerOrder) (moves : List OrderMove) : List ServerOrder :=
  moves.foldl OrderMove.apply server

def listOrders (server : List ServerOrder) (status : ServerStatus) : List ServerOrder :=
  server.filter (fun o => o.status = status)

def serverOrder (server : List ServerOrder) (clientOrderId : String) : Option ServerOrder :=
  server.find? (fun o => o.clientOrderId = clientOrderId)

def HoldsOne (server : List ServerOrder) (o : ServerOrder) : Prop :=
  o ∈ server ∧ ∀ o' ∈ server, o'.clientOrderId = o.clientOrderId → o' = o

def OrderMove.LandsAs (clientOrderId : String) : OrderMove → Prop
  | .settles _ _ => False
  | .lands o => o.clientOrderId = clientOrderId

/-- The status an order is recovered with: its final one if it had it when that was listed. -/
def adoptedStatus (whenClosed whenCancelled : List ServerOrder) (clientOrderId : String) :
    ServerStatus :=
  if (serverOrder whenClosed clientOrderId).map ServerOrder.status = some .executed then .executed
  else if (serverOrder whenCancelled clientOrderId).map ServerOrder.status = some .canceled then
    .canceled
  else .resting

theorem clientOrderId_of_find? {orders : List ServerOrder} {id : String} {o : ServerOrder}
    (h : orders.find? (fun o => o.clientOrderId = id) = some o) : o.clientOrderId = id :=
  of_decide_eq_true (List.find?_some (p := fun o : ServerOrder => decide (o.clientOrderId = id)) h)

theorem HoldsOne.serverOrder_eq {server : List ServerOrder} {o : ServerOrder} (h : HoldsOne server o) :
    serverOrder server o.clientOrderId = some o := by
  unfold serverOrder
  cases hfind : server.find? (fun o' => o'.clientOrderId = o.clientOrderId) with
  | none => exact absurd (decide_eq_true rfl) (List.find?_eq_none.mp hfind o h.1)
  | some o' =>
    rw [h.2 o' (List.mem_of_find?_eq_some hfind) (clientOrderId_of_find? hfind)]

theorem HoldsOne.apply {server : List ServerOrder} {o : ServerOrder} {move : OrderMove}
    (h : HoldsOne server o) (hlands : ¬ move.LandsAs o.clientOrderId) :
    ∃ status, HoldsOne (move.apply server) { o with status := status } ∧
      (o.status ≠ .resting → status = o.status) := by
  cases move with
  | lands o' =>
    refine ⟨o.status, ⟨List.mem_append_left _ h.1, fun o'' ho'' hid => ?_⟩, fun _ => rfl⟩
    rcases List.mem_append.mp ho'' with hold | hnew
    · exact h.2 o'' hold hid
    · obtain rfl := List.mem_singleton.mp hnew
      exact absurd hid hlands
  | settles orderId final =>
    by_cases hmoves : o.orderId = orderId ∧ o.status = .resting
    · refine ⟨final, ⟨List.mem_map.mpr ⟨o, h.1, if_pos hmoves⟩, fun o' ho' hid => ?_⟩,
        fun hne => absurd hmoves.2 hne⟩
      obtain ⟨o'', ho'', rfl⟩ := List.mem_map.mp ho'
      have hsame : o'' = o := by
        apply h.2 o'' ho''
        split_ifs at hid <;> exact hid
      rw [hsame, if_pos hmoves]
    · refine ⟨o.status, ⟨List.mem_map.mpr ⟨o, h.1, if_neg hmoves⟩, fun o' ho' hid => ?_⟩,
        fun _ => rfl⟩
      obtain ⟨o'', ho'', rfl⟩ := List.mem_map.mp ho'
      have hsame : o'' = o := by
        apply h.2 o'' ho''
        split_ifs at hid <;> exact hid
      rw [hsame, if_neg hmoves]

theorem HoldsOne.after {server : List ServerOrder} {o : ServerOrder} {moves : List OrderMove}
    (h : HoldsOne server o) (hlands : ∀ move ∈ moves, ¬ move.LandsAs o.clientOrderId) :
    ∃ status, HoldsOne (serverAfter server moves) { o with status := status } ∧
      (o.status ≠ .resting → status = o.status) := by
  induction moves generalizing server o with
  | nil => exact ⟨o.status, h, fun _ => rfl⟩
  | cons move moves ih =>
    obtain ⟨status, hheld, hstays⟩ := h.apply (hlands move List.mem_cons_self)
    obtain ⟨status', hheld', hstays'⟩ := ih hheld fun m hm => hlands m (List.mem_cons_of_mem _ hm)
    refine ⟨status', hheld', fun hne => ?_⟩
    obtain rfl := hstays hne
    exact hstays' hne

theorem HoldsOne.find_listOrders {server : List ServerOrder} {o : ServerOrder}
    (h : HoldsOne server o) (status : ServerStatus) :
    (listOrders server status).reverse.find? (fun o' => o'.clientOrderId = o.clientOrderId) =
      if o.status = status then some o else none := by
  cases hfind : (listOrders server status).reverse.find?
      (fun o' => o'.clientOrderId = o.clientOrderId) with
  | none =>
    rw [if_neg]
    intro hstatus
    have hlisted : o ∈ (listOrders server status).reverse :=
      List.mem_reverse.mpr (List.mem_filter.mpr ⟨h.1, decide_eq_true hstatus⟩)
    exact absurd (decide_eq_true rfl) (List.find?_eq_none.mp hfind o hlisted)
  | some o' =>
    have hlisted := List.mem_filter.mp (List.mem_reverse.mp (List.mem_of_find?_eq_some hfind))
    obtain rfl := h.2 o' hlisted.1 (clientOrderId_of_find? hfind)
    rw [if_pos (of_decide_eq_true hlisted.2)]

structure Reads where
  opened : List ServerOrder
  closed : List ServerOrder
  cancelled : List ServerOrder

def Reads.between (server : List ServerOrder) (before₁ before₂ before₃ : List OrderMove) : Reads where
  opened := serverAfter server before₁
  closed := serverAfter (serverAfter server before₁) before₂
  cancelled := serverAfter (serverAfter (serverAfter server before₁) before₂) before₃

def Reads.remote (reads : Reads) : List ServerOrder :=
  listOrders reads.opened .resting ++ listOrders reads.closed .executed ++
    listOrders reads.cancelled .canceled

theorem matchRemote_moving {reads : Reads} {o : ServerOrder} {s₁ s₂ s₃ : ServerStatus}
    (h₁ : HoldsOne reads.opened { o with status := s₁ })
    (h₂ : HoldsOne reads.closed { o with status := s₂ })
    (h₃ : HoldsOne reads.cancelled { o with status := s₃ })
    (hstays₂ : s₁ ≠ .resting → s₂ = s₁) (hstays₃ : s₂ ≠ .resting → s₃ = s₂) {item : InFlight}
    (hitem : item.clientOrderId = o.clientOrderId) :
    matchRemote reads.remote item = some { o with
      status := adoptedStatus reads.closed reads.cancelled o.clientOrderId } := by
  have hclosed : serverOrder reads.closed o.clientOrderId = some { o with status := s₂ } :=
    h₂.serverOrder_eq
  have hcancelled : serverOrder reads.cancelled o.clientOrderId = some { o with status := s₃ } :=
    h₃.serverOrder_eq
  have hfind₁ := h₁.find_listOrders .resting
  have hfind₂ := h₂.find_listOrders .executed
  have hfind₃ := h₃.find_listOrders .canceled
  dsimp only at hfind₁ hfind₂ hfind₃
  have hfind : reads.remote.reverse.find? (fun o' => o'.clientOrderId = item.clientOrderId) =
      some { o with status := adoptedStatus reads.closed reads.cancelled o.clientOrderId } := by
    rw [Reads.remote, List.reverse_append, List.reverse_append, List.find?_append, List.find?_append,
      hitem, hfind₁, hfind₂, hfind₃, adoptedStatus, hclosed, hcancelled]
    -- when its final status was listed it had settled, or it is on the list of the resting ones
    rcases eq_or_ne s₁ .resting with rfl | hsettled
    · rcases eq_or_ne s₂ .resting with rfl | hsettled
      · cases s₃ <;> rfl
      · obtain rfl := hstays₃ hsettled
        cases s₃ <;> rfl
    · obtain rfl := hstays₂ hsettled
      obtain rfl := hstays₃ hsettled
      cases s₃ <;> rfl
  unfold matchRemote
  rw [hfind]

theorem HoldsOne.matchRemote_between {server : List ServerOrder} {o : ServerOrder}
    {before₁ before₂ before₃ : List OrderMove} (h : HoldsOne server o)
    (hlands : ∀ move ∈ before₁ ++ before₂ ++ before₃, ¬ move.LandsAs o.clientOrderId)
    {item : InFlight} (hitem : item.clientOrderId = o.clientOrderId) :
    matchRemote (Reads.between server before₁ before₂ before₃).remote item = some { o with
      status := adoptedStatus (Reads.between server before₁ before₂ before₃).closed
        (Reads.between server before₁ before₂ before₃).cancelled o.clientOrderId } := by
  simp only [List.forall_mem_append] at hlands
  obtain ⟨s₁, h₁, _⟩ := h.after hlands.1.1
  obtain ⟨s₂, h₂, hstays₂⟩ := h₁.after hlands.1.2
  obtain ⟨s₃, h₃, hstays₃⟩ := h₂.after hlands.2
  exact matchRemote_moving h₁ h₂ h₃ hstays₂ hstays₃ hitem

def adoptOrder (o : ServerOrder) (row : Order) : Order :=
  { row with kalshiOrderId := some o.orderId, status := o.status.text }

theorem recoverOrder_matched {remote : List ServerOrder} {item : InFlight} {o : ServerOrder}
    (h : matchRemote remote item = some o) (agent : Agent) (summary : RecoverySummary) :
    (recoverOrder agent remote summary item).1.db.orders = agent.db.orders.map (fun row =>
        if row.clientOrderId = item.clientOrderId then adoptOrder o row else row) ∧
      (recoverOrder agent remote summary item).2 =
        { summary with recovered := summary.recovered + 1 } := by
  rw [recoverOrder, h]
  exact ⟨rfl, rfl⟩

theorem recoverOrders_matched {remote : List ServerOrder} {matched : String → ServerOrder}
    (items : List InFlight)
    (hmatch : ∀ item ∈ items, matchRemote remote item = some (matched item.clientOrderId))
    (agent : Agent) (summary : RecoverySummary) :
    (items.foldl (fun p item => recoverOrder p.1 remote p.2 item) (agent, summary)).1.db.orders =
        agent.db.orders.map (fun row =>
          if row.clientOrderId ∈ items.map InFlight.clientOrderId then
            adoptOrder (matched row.clientOrderId) row
          else row) ∧
      (items.foldl (fun p item => recoverOrder p.1 remote p.2 item) (agent, summary)).2 =
        { summary with recovered := summary.recovered + items.length } := by
  induction items generalizing agent summary with
  | nil => simp
  | cons item items ih =>
    obtain ⟨hwritten, hcounted⟩ := recoverOrder_matched (hmatch item List.mem_cons_self) agent summary
    obtain ⟨horders, hsummary⟩ := ih (fun i hi => hmatch i (List.mem_cons_of_mem _ hi))
      (recoverOrder agent remote summary item).1 (recoverOrder agent remote summary item).2
    rw [List.foldl_cons]
    constructor
    · rw [horders, hwritten, List.map_map]
      refine List.map_congr_left fun row _ => ?_
      have hmem : row.clientOrderId ∈ (item :: items).map InFlight.clientOrderId ↔
          row.clientOrderId = item.clientOrderId ∨
            row.clientOrderId ∈ items.map InFlight.clientOrderId := by
        rw [List.map_cons, List.mem_cons]
      rw [Function.comp_apply]
      by_cases hid : row.clientOrderId = item.clientOrderId
      · -- a second item of the id would write the same
        have hkept : (adoptOrder (matched item.clientOrderId) row).clientOrderId =
            item.clientOrderId := hid
        rw [if_pos hid, if_pos (hmem.mpr (.inl hid)), hkept, hid]
        split_ifs <;> rfl
      · rw [if_neg hid]
        by_cases hlater : row.clientOrderId ∈ items.map InFlight.clientOrderId
        · rw [if_pos hlater, if_pos (hmem.mpr (.inr hlater))]
        · rw [if_neg hlater, if_neg (fun h => (hmem.mp h).elim hid hlater)]
    · rw [hsummary, hcounted, List.length_cons, Nat.add_comm items.length 1, ← Nat.add_assoc]

theorem mem_inFlight_iff {db : Db} (hunique : (db.orders.map Order.clientOrderId).Nodup) {row : Order}
    (hrow : row ∈ db.orders) :
    row.clientOrderId ∈ (inFlightOrders db).map InFlight.clientOrderId ↔ row.status = "pending" := by
  unfold inFlightOrders
  rw [List.map_map, List.mem_map]
  constructor
  · rintro ⟨other, hother, hid⟩
    obtain ⟨hmem, hpending⟩ := List.mem_filter.mp hother
    have hsame : other = row := List.inj_on_of_nodup_map hunique hmem hrow hid
    exact hsame ▸ of_decide_eq_true hpending
  · exact fun hpending => ⟨row, List.mem_filter.mpr ⟨hrow, decide_eq_true hpending⟩, rfl⟩

structure AllHeld (db : Db) (server : List ServerOrder) (moves : List OrderMove) : Prop where
  -- the column `client_order_id` is unique
  unique : (db.orders.map Order.clientOrderId).Nodup
  held : ∀ row ∈ db.orders, row.status = "pending" →
    ∃ o, HoldsOne server o ∧ o.clientOrderId = row.clientOrderId
  lands : ∀ row ∈ db.orders, row.status = "pending" →
    ∀ move ∈ moves, ¬ move.LandsAs row.clientOrderId

def recoveredRow (reads : Reads) (server : List ServerOrder) (row : Order) : Order :=
  { row with
    kalshiOrderId := (serverOrder server row.clientOrderId).map ServerOrder.orderId
    status := (adoptedStatus reads.closed reads.cancelled row.clientOrderId).text }

/-- Recovery misses no moving order: every pending row is recovered, under the final status of its
order if that was reached before it was listed and as resting otherwise. -/
theorem recovery_misses_none (agent : Agent) (server : List ServerOrder)
    (before₁ before₂ before₃ : List OrderMove)
    (hheld : AllHeld agent.db server (before₁ ++ before₂ ++ before₃)) :
    let reads := Reads.between server before₁ before₂ before₃
    let recovered := recoverInFlightOrders agent (listOrders reads.opened .resting)
      (listOrders reads.closed .executed) (listOrders reads.cancelled .canceled)
    recovered.2 = ⟨(inFlightOrders agent.db).length, (inFlightOrders agent.db).length, 0, none⟩ ∧
      recovered.1.db.orders = agent.db.orders.map (fun row =>
        if row.status = "pending" then recoveredRow reads server row else row) := by
  intro reads recovered
  have hserver : ∀ row ∈ agent.db.orders, row.status = "pending" →
      ∃ o, serverOrder server row.clientOrderId = some o ∧
        ∀ item : InFlight, item.clientOrderId = row.clientOrderId →
          matchRemote reads.remote item = some { o with
            status := adoptedStatus reads.closed reads.cancelled row.clientOrderId } := by
    intro row hrow hpending
    obtain ⟨o, ho, hid⟩ := hheld.held row hrow hpending
    have hlands := hheld.lands row hrow hpending
    rw [← hid] at hlands ⊢
    exact ⟨o, ho.serverOrder_eq, fun item hitem => ho.matchRemote_between hlands hitem⟩
  let matched : String → ServerOrder := fun id =>
    { (serverOrder server id).getD ⟨"", id, .resting⟩ with
      status := adoptedStatus reads.closed reads.cancelled id }
  have hmatched : ∀ item ∈ inFlightOrders agent.db,
      matchRemote reads.remote item = some (matched item.clientOrderId) := by
    intro item hitem
    obtain ⟨row, hrow, rfl⟩ := List.mem_map.mp hitem
    obtain ⟨hmem, hpending⟩ := List.mem_filter.mp hrow
    obtain ⟨o, ho, hmatch⟩ := hserver row hmem (of_decide_eq_true hpending)
    rw [hmatch _ rfl]
    simp only [matched, ho, Option.getD_some]
  obtain ⟨horders, hsummary⟩ := recoverOrders_matched (inFlightOrders agent.db) hmatched agent
    ⟨(inFlightOrders agent.db).length, 0, 0, none⟩
  refine ⟨hsummary.trans (by rw [Nat.zero_add]), horders.trans ?_⟩
  refine List.map_congr_left fun row hrow => ?_
  by_cases hpending : row.status = "pending"
  · obtain ⟨o, ho, _⟩ := hserver row hrow hpending
    rw [if_pos hpending, if_pos ((mem_inFlight_iff hheld.unique hrow).mpr hpending)]
    simp only [adoptOrder, recoveredRow, matched, ho, Option.getD_some, Option.map_some]
  · rw [if_neg hpending, if_neg ((mem_inFlight_iff hheld.unique hrow).not.mpr hpending)]

def pendingRow (clientOrderId : String) : Order :=
  ⟨clientOrderId, none, "FOO", .yes, .buy, 5, ⟨5000⟩, "pending", some 1⟩

theorem recovery_misses_none_twoMoves :
    let agent : Agent := ⟨{ Db.empty with orders := [pendingRow "c1", pendingRow "c2"] }, ⟨none⟩, .start⟩
    let server : List ServerOrder := [⟨"k1", "c1", .resting⟩, ⟨"k2", "c2", .resting⟩]
    let reads := Reads.between server [] [.settles "k1" .executed] [.settles "k2" .executed]
    let recovered := recoverInFlightOrders agent (listOrders reads.opened .resting)
      (listOrders reads.closed .executed) (listOrders reads.cancelled .canceled)
    recovered.2 = ⟨2, 2, 0, none⟩ ∧
      recovered.1.db.orders.map Order.status = ["executed", "resting"] := by
  intro agent server reads recovered
  have hheld : AllHeld agent.db server
      ([] ++ [.settles "k1" .executed] ++ [.settles "k2" .executed]) := by
    refine ⟨by decide, ?_, ?_⟩
    · have hone : ∀ row ∈ agent.db.orders, ∃ o ∈ server, (∀ o' ∈ server,
          o'.clientOrderId = o.clientOrderId → o' = o) ∧ o.clientOrderId = row.clientOrderId := by
        decide
      intro row hrow _
      obtain ⟨o, ho, hother, hid⟩ := hone row hrow
      exact ⟨o, ⟨ho, hother⟩, hid⟩
    · intro row _ _ move hmove
      simp only [List.nil_append, List.cons_append, List.mem_cons, List.not_mem_nil, or_false] at hmove
      rcases hmove with rfl | rfl <;> exact id
  obtain ⟨hsummary, horders⟩ := recovery_misses_none agent server _ _ _ hheld
  exact ⟨hsummary, (congrArg (List.map Order.status) horders).trans (by decide)⟩

end KalshiAgent
