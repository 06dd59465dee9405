import KalshiAgent.Fills.Booking
import KalshiAgent.Lib.Execution
import KalshiAgent.Recovery
import KalshiAgent.Safety.HaltActions

/-! The status "filled" against the Fill table. The ingestor gives it to the order of any fill that
realizes something, whatever part of the order has been filled, and spares an order only under the
statuses "filled" and "cancelled". -/

namespace KalshiAgent
open Execution

def Db.filledCount (db : Db) (orderId : String) : ℤ :=
  ((db.fills.filter (fun f => f.kalshiOrderId = orderId)).map Fill.count).sum

def parentOrder (orders : List Order) (orderId : String) : Option Order :=
  orders.find? (fun o => o.kalshiOrderId = some orderId)

/-- Every row that says filled has fills for its whole count. -/
def FilledTruthful (db : Db) : Prop :=
  ∀ row ∈ db.orders, row.status = "filled" →
    ∃ orderId ∈ row.kalshiOrderId, db.filledCount orderId = row.count

instance (db : Db) : Decidable (FilledTruthful db) := by
  unfold FilledTruthful
  infer_instance

inductive OrderStep
  | placed (signal : Signal) (currentPrice : ℚ) (contracts : ℤ) (clientOrderId : String)
      (clock : Clock)
  | answered (clientOrderId : String) (outcome : Except ClientError OrderResponse) (clock : Clock)
  | ingested (fills : List Arrival)
  | recovered (remote : List ServerOrder) (item : InFlight)
  | halted (reason : Option Halt) (n : ℤ)

def orderStep (cfg : Config) (env : IngestEnv) (agent : Agent) : OrderStep → Option Agent
  | .placed signal currentPrice contracts clientOrderId clock =>
    some (placeOrder agent signal currentPrice contracts clientOrderId clock).1
  | .answered clientOrderId outcome clock =>
    some (recordOutcome cfg agent clientOrderId outcome clock)
  | .ingested fills =>
    match ingestPage env ⟨agent.db, 0, 0⟩ fills with
    -- the page is rolled back
    | .error _ => some agent
    | .ok st => some { agent with db := st.db }
  | .recovered remote item => some (recoverOrder agent remote ⟨0, 0, 0, none⟩ item).1
  | .halted reason n => some { agent with db := onEngaged agent.db reason n }

def bookedFills (env : IngestEnv) (st : PollState) : List Arrival → List (KalshiFill × ℚ)
  | [] => []
  | a :: as =>
    match applyFill env.takerRate st.db a, ingestFill env st a with
    | .ok (_, realized), .ok st' =>
      (if st.db.hasFill a.lookupIdentity then [] else [(a.fill, realized)]) ++
        bookedFills env st' as
    | _, _ => []

def pageFills (env : IngestEnv) (db : Db) (fills : List Arrival) : List (KalshiFill × ℚ) :=
  match ingestPage env ⟨db, 0, 0⟩ fills with
  | .error _ => []
  | .ok _ => bookedFills env ⟨db, 0, 0⟩ fills

def pageCount (page : List (KalshiFill × ℚ)) (orderId : String) : ℤ :=
  ((page.filter (fun p => p.1.orderId = orderId)).map (fun p => p.1.count)).sum

def pageParents (page : List (KalshiFill × ℚ)) : List String :=
  (page.filter (fun p => p.2 ≠ 0)).map (fun p => p.1.orderId)

structure PageCompletes (db : Db) (page : List (KalshiFill × ℚ)) : Prop where
  settled : ∀ row ∈ db.orders, row.status = "filled" → ∀ orderId ∈ row.kalshiOrderId,
    pageCount page orderId = 0
  marked : ∀ orderId ∈ pageParents page, ∀ row ∈ parentOrder db.orders orderId,
    row.status ∉ ["filled", "cancelled"] →
      db.filledCount orderId + pageCount page orderId = row.count

/-- The step calls an order filled only with fills for its whole count. -/
def CompletesOrders (env : IngestEnv) (agent : Agent) : OrderStep → Prop
  | .answered clientOrderId (.ok response) _ => response.status = "filled" →
    ∀ row ∈ agent.db.orders, row.clientOrderId = clientOrderId →
      agent.db.filledCount response.orderId = row.count
  | .ingested fills => PageCompletes agent.db (pageFills env agent.db fills)
  | _ => True

section Marks

theorem parentOrder_cons (order : Order) (orders : List Order) (orderId : String) :
    parentOrder (order :: orders) orderId =
      if order.kalshiOrderId = some orderId then some order else parentOrder orders orderId := by
  unfold parentOrder
  split_ifs with hkid
  · exact List.find?_cons_of_pos (decide_eq_true hkid)
  · exact List.find?_cons_of_neg (fun h => hkid (of_decide_eq_true h))

def settled (order : Order) : Order :=
  if order.status ∈ ["filled", "cancelled"] then order else { order with status := "filled" }

theorem settled_kalshiOrderId (order : Order) :
    (settled order).kalshiOrderId = order.kalshiOrderId := by
  unfold settled
  split_ifs <;> rfl

theorem settled_status (order : Order) : (settled order).status ∈ ["filled", "cancelled"] := by
  unfold settled
  split_ifs with hstatus
  · exact hstatus
  · exact List.mem_cons_self

theorem settled_settled (order : Order) : settled (settled order) = settled order :=
  if_pos (settled_status order)

theorem parentOrder_markFilled_self (orderId : String) (orders : List Order) :
    parentOrder (markFilled orderId orders) orderId = (parentOrder orders orderId).map settled := by
  induction orders with
  | nil => rfl
  | cons order orders ih =>
    rw [markFilled, parentOrder_cons]
    by_cases hkid : order.kalshiOrderId = some orderId
    · have hmarked : (settled order).kalshiOrderId = some orderId :=
        (settled_kalshiOrderId order).trans hkid
      rw [if_pos hkid, if_pos hkid]
      exact (parentOrder_cons (settled order) orders orderId).trans (if_pos hmarked)
    · rw [if_neg hkid, if_neg hkid, parentOrder_cons, if_neg hkid, ih]

theorem parentOrder_markFilled_of_ne {orderId other : String} (h : other ≠ orderId)
    (orders : List Order) :
    parentOrder (markFilled orderId orders) other = parentOrder orders other := by
  induction orders with
  | nil => rfl
  | cons order orders ih =>
    rw [markFilled]
    by_cases hkid : order.kalshiOrderId = some orderId
    · have hother : order.kalshiOrderId ≠ some other := fun heq =>
        h (Option.some.inj (heq.symm.trans hkid))
      rw [if_pos hkid, parentOrder_cons, parentOrder_cons, if_neg hother, if_neg]
      split_ifs <;> exact hother
    · rw [if_neg hkid, parentOrder_cons, parentOrder_cons, ih]

theorem parentOrder_markAll_of_notMem {orderId : String} {orderIds : List String}
    (h : orderId ∉ orderIds) (orders : List Order) :
    parentOrder (orderIds.foldl (fun orders orderId => markFilled orderId orders) orders) orderId =
      parentOrder orders orderId := by
  induction orderIds generalizing orders with
  | nil => rfl
  | cons first orderIds ih =>
    rw [List.mem_cons, not_or] at h
    rw [List.foldl_cons, ih h.2, parentOrder_markFilled_of_ne h.1]

theorem parentOrder_markAll {orderId : String} {orderIds : List String} (h : orderId ∈ orderIds)
    (orders : List Order) :
    parentOrder (orderIds.foldl (fun orders orderId => markFilled orderId orders) orders) orderId =
      (parentOrder orders orderId).map settled := by
  induction orderIds generalizing orders with
  | nil => exact absurd h List.not_mem_nil
  | cons first orderIds ih =>
    rw [List.foldl_cons]
    by_cases hrest : orderId ∈ orderIds
    · rw [ih hrest]
      rcases eq_or_ne orderId first with rfl | hne
      · rw [parentOrder_markFilled_self, Option.map_map]
        exact congrArg (Option.map · _) (funext settled_settled)
      · rw [parentOrder_markFilled_of_ne hne]
    · obtain rfl := (List.mem_cons.mp h).resolve_right hrest
      rw [parentOrder_markAll_of_notMem hrest, parentOrder_markFilled_self]

variable {Q : Order → Prop} (hQ : ∀ row status, Q { row with status := status } ↔ Q row)
include hQ

theorem filled_markFilled (orderId : String) (orders : List Order) :
    (∀ row ∈ markFilled orderId orders, row.status = "filled" → Q row) ↔
      (∀ row ∈ orders, row.status = "filled" → Q row) ∧
        ∀ row ∈ parentOrder orders orderId, row.status ∉ ["filled", "cancelled"] → Q row := by
  induction orders with
  | nil => simp [markFilled, parentOrder]
  | cons order orders ih =>
    rw [markFilled, parentOrder_cons]
    by_cases hkid : order.kalshiOrderId = some orderId
    · rw [if_pos hkid, if_pos hkid]
      by_cases hstatus : order.status ∈ ["filled", "cancelled"]
      · rw [if_pos hstatus]
        refine (and_iff_left fun row hrow hopen => ?_).symm
        cases hrow
        exact absurd hstatus hopen
      · rw [if_neg hstatus, List.forall_mem_cons, List.forall_mem_cons]
        constructor
        · rintro ⟨hmarked, hrest⟩
          refine ⟨⟨fun hfilled => absurd (hfilled ▸ List.mem_cons_self) hstatus, hrest⟩, ?_⟩
          rintro row hrow _
          cases hrow
          exact (hQ order "filled").mp (hmarked rfl)
        · rintro ⟨⟨_, hrest⟩, hparent⟩
          exact ⟨fun _ => (hQ order "filled").mpr (hparent order rfl hstatus), hrest⟩
    · rw [if_neg hkid, if_neg hkid, List.forall_mem_cons, List.forall_mem_cons, ih, and_assoc]

theorem filled_markAll (orderIds : List String) (orders : List Order) :
    (∀ row ∈ orderIds.foldl (fun orders orderId => markFilled orderId orders) orders,
        row.status = "filled" → Q row) ↔
      (∀ row ∈ orders, row.status = "filled" → Q row) ∧
        ∀ orderId ∈ orderIds, ∀ row ∈ parentOrder orders orderId,
          row.status ∉ ["filled", "cancelled"] → Q row := by
  induction orderIds generalizing orders with
  | nil => simp
  | cons orderId orderIds ih =>
    rw [List.foldl_cons, ih, filled_markFilled hQ, List.forall_mem_cons, and_assoc]
    refine and_congr_right fun _ => and_congr_right fun hself => ?_
    refine forall₂_congr fun other _ => ?_
    rcases eq_or_ne other orderId with rfl | hne
    · refine iff_of_true (fun row hrow hstatus => ?_) hself
      rw [parentOrder_markFilled_self] at hrow
      obtain ⟨order, _, rfl⟩ := Option.map_eq_some_iff.mp hrow
      exact absurd (settled_status order) hstatus
    · rw [parentOrder_markFilled_of_ne hne]

end Marks

section Page
variable {env : IngestEnv}

theorem pageCount_append (xs ys : List (KalshiFill × ℚ)) (orderId : String) :
    pageCount (xs ++ ys) orderId = pageCount xs orderId + pageCount ys orderId := by
  unfold pageCount
  rw [List.filter_append, List.map_append, List.sum_append]

theorem pageParents_append (xs ys : List (KalshiFill × ℚ)) :
    pageParents (xs ++ ys) = pageParents xs ++ pageParents ys := by
  unfold pageParents
  rw [List.filter_append, List.map_append]

theorem filledCount_recordFill (db : Db) (a : Arrival) (price fee realized : ℚ) (pos : Position)
    (orderId : String) : (db.recordFill (a.row price fee) pos).filledCount orderId =
      db.filledCount orderId + pageCount [(a.fill, realized)] orderId := by
  unfold Db.filledCount Db.recordFill
  rw [List.filter_append, List.map_append, List.sum_append]
  by_cases horder : a.fill.orderId = orderId
  · simp [pageCount, Arrival.row, horder]
  · simp [pageCount, Arrival.row, horder]

theorem ingestFill_writes {st st' : PollState} {a : Arrival}
    (h : ingestFill env st a = .ok st') :
    ∃ new : List (KalshiFill × ℚ),
      (∀ as, bookedFills env st (a :: as) = new ++ bookedFills env st' as) ∧
      (∀ orderId, st'.db.filledCount orderId = st.db.filledCount orderId + pageCount new orderId) ∧
      st'.db.orders = (pageParents new).foldl (fun orders orderId => markFilled orderId orders)
        st.db.orders := by
  obtain ⟨db, realized, happly, hbooked, horders, _⟩ := ingestFill_cases h
  have hbook : ∀ as, bookedFills env st (a :: as) =
      (if st.db.hasFill a.lookupIdentity then [] else [(a.fill, realized)]) ++
        bookedFills env st' as := by
    intro as
    rw [bookedFills, happly, h]
  have hcount : ∀ orderId, st'.db.filledCount orderId = db.filledCount orderId := by
    intro orderId
    unfold Db.filledCount
    rw [(Prod.mk.inj hbooked).1]
  refine ⟨_, hbook, fun orderId => (hcount orderId).trans ?_, horders.trans ?_⟩
  · rcases applyFill_cases happly with ⟨hdup, rfl, _⟩ | ⟨hnew, price, moved, gross, _, _, _, rfl⟩
    · rw [hdup, if_pos rfl]
      exact (add_zero _).symm
    · rw [hnew, if_neg Bool.false_ne_true]
      exact filledCount_recordFill ..
  · rcases applyFill_cases happly with ⟨hdup, rfl, rfl⟩ | ⟨hnew, price, moved, gross, _, _, _, rfl⟩
    · rw [hdup, if_pos rfl, if_pos rfl]
      rfl
    · rw [hnew, if_neg Bool.false_ne_true]
      by_cases hzero : realized = 0
      · rw [if_pos hzero]
        simp [pageParents, hzero, Db.recordFill]
      · rw [if_neg hzero]
        simp [pageParents, hzero, Db.recordFill]

theorem ingestPage_writes {st st' : PollState} {as : List Arrival}
    (h : ingestPage env st as = .ok st') :
    (∀ orderId, st'.db.filledCount orderId =
        st.db.filledCount orderId + pageCount (bookedFills env st as) orderId) ∧
      st'.db.orders = (pageParents (bookedFills env st as)).foldl
        (fun orders orderId => markFilled orderId orders) st.db.orders := by
  induction as generalizing st with
  | nil =>
    cases h
    exact ⟨fun orderId => (add_zero _).symm, rfl⟩
  | cons a as ih =>
    rw [ingestPage] at h
    cases hfill : ingestFill env st a with
    | error e => simp [hfill] at h
    | ok st₁ =>
      simp only [hfill] at h
      obtain ⟨new, hbook, hcount, horders⟩ := ingestFill_writes hfill
      obtain ⟨hcounts, hmarks⟩ := ih h
      rw [hbook]
      refine ⟨fun orderId => ?_, ?_⟩
      · rw [hcounts, hcount, pageCount_append, add_assoc]
      · rw [hmarks, horders, pageParents_append, List.foldl_append]

end Page

section Steps
variable {cfg : Config} {env : IngestEnv} {agent agent' : Agent}

theorem kalshiOrderId_of_parentOrder {orders : List Order} {orderId : String} {row : Order}
    (h : row ∈ parentOrder orders orderId) : orderId ∈ row.kalshiOrderId :=
  of_decide_eq_true
    (List.find?_some (p := fun o : Order => decide (o.kalshiOrderId = some orderId)) h)

theorem FilledTruthful.of_rows {db db' : Db} (hdb : FilledTruthful db)
    (hfills : db'.fills = db.fills)
    (hrows : ∀ row ∈ db'.orders, row.status = "filled" → row ∈ db.orders) : FilledTruthful db' := by
  intro row hrow hfilled
  obtain ⟨orderId, hkid, hcount⟩ := hdb row (hrows row hrow hfilled) hfilled
  refine ⟨orderId, hkid, ?_⟩
  unfold Db.filledCount at hcount ⊢
  rw [hfills, hcount]

theorem FilledTruthful.update (hdb : FilledTruthful agent.db) {clientOrderId : String}
    {change : Order → Order} (hfills : agent'.db.fills = agent.db.fills)
    (horders : agent'.db.orders = (agent.updateOrder clientOrderId change).db.orders)
    (hchange : ∀ row, (change row).status ≠ "filled") : FilledTruthful agent'.db := by
  refine hdb.of_rows hfills fun row hrow hfilled => ?_
  obtain ⟨old, hold, ⟨_, rfl⟩ | ⟨_, rfl⟩⟩ := mem_updateOrder.mp (horders ▸ hrow)
  · exact absurd hfilled (hchange old)
  · exact hold

theorem filledTruthful_page {db db' : Db} {page : List (KalshiFill × ℚ)} (hdb : FilledTruthful db)
    (hcount : ∀ orderId, db'.filledCount orderId = db.filledCount orderId + pageCount page orderId)
    (horders : db'.orders = (pageParents page).foldl
      (fun orders orderId => markFilled orderId orders) db.orders) :
    FilledTruthful db' ↔ PageCompletes db page := by
  have hmarks := filled_markAll (fun row status => Iff.rfl) (pageParents page) db.orders
    (Q := fun row => ∃ orderId ∈ row.kalshiOrderId, db'.filledCount orderId = row.count)
  unfold FilledTruthful
  rw [horders, hmarks]
  constructor
  · rintro ⟨hrows, hparents⟩
    refine ⟨fun row hrow hfilled orderId hkid => ?_, fun orderId hmem row hparent hopen => ?_⟩
    · obtain ⟨_, hkid', hnow⟩ := hrows row hrow hfilled
      obtain ⟨_, hkid'', hbefore⟩ := hdb row hrow hfilled
      obtain rfl := Option.mem_unique hkid hkid'
      obtain rfl := Option.mem_unique hkid hkid''
      rw [hcount, hbefore] at hnow
      omega
    · obtain ⟨_, hkid, hnow⟩ := hparents orderId hmem row hparent hopen
      obtain rfl := Option.mem_unique (kalshiOrderId_of_parentOrder hparent) hkid
      exact (hcount orderId).symm.trans hnow
  · rintro ⟨hsettled, hmarked⟩
    refine ⟨fun row hrow hfilled => ?_, fun orderId hmem row hparent hopen => ?_⟩
    · obtain ⟨orderId, hkid, hbefore⟩ := hdb row hrow hfilled
      refine ⟨orderId, hkid, ?_⟩
      rw [hcount, hsettled row hrow hfilled orderId hkid, hbefore, add_zero]
    · exact ⟨orderId, kalshiOrderId_of_parentOrder hparent,
        (hcount orderId).trans (hmarked orderId hmem row hparent hopen)⟩

theorem orderStep_filledTruthful {step : OrderStep} (hdb : FilledTruthful agent.db)
    (h : orderStep cfg env agent step = some agent') :
    FilledTruthful agent'.db ↔ CompletesOrders env agent step := by
  cases step with
  | placed signal currentPrice contracts clientOrderId clock =>
    cases h
    refine iff_of_true (hdb.of_rows rfl fun row hrow hfilled => ?_) trivial
    rcases List.mem_append.mp hrow with hold | hnew
    · exact hold
    · obtain rfl := List.mem_singleton.mp hnew
      exact absurd hfilled (by decide : "pending" ≠ "filled")
  | answered clientOrderId outcome clock =>
    cases h
    cases outcome with
    | ok response =>
      constructor
      · intro hfilled hstatus row hrow hid
        obtain ⟨orderId, hkid, hcount⟩ := hfilled _
          (mem_updateOrder.mpr ⟨row, hrow, .inl ⟨hid, rfl⟩⟩) hstatus
        cases hkid
        exact hcount
      · intro hcomplete row' hrow' hfilled
        obtain ⟨row, hrow, ⟨hid, rfl⟩ | ⟨_, rfl⟩⟩ := mem_updateOrder.mp hrow'
        · exact ⟨response.orderId, rfl, hcomplete hfilled row hrow hid⟩
        · exact hdb row hrow hfilled
    | error e =>
      refine iff_of_true ?_ trivial
      cases e with
      | other message => exact hdb
      | api statusCode body =>
        exact hdb.update rfl rfl fun _ => (by decide : "send_failed" ≠ "filled")
      | auth message =>
        exact hdb.update rfl rfl fun _ => (by decide : "send_failed" ≠ "filled")
  | ingested fills =>
    simp only [orderStep] at h
    cases hpage : ingestPage env ⟨agent.db, 0, 0⟩ fills with
    | error e =>
      rw [hpage] at h
      cases h
      rw [CompletesOrders, pageFills, hpage]
      exact iff_of_true hdb ⟨fun _ _ _ _ _ => rfl, fun _ h => absurd h List.not_mem_nil⟩
    | ok st =>
      rw [hpage] at h
      cases h
      obtain ⟨hcount, horders⟩ := ingestPage_writes hpage
      rw [CompletesOrders, pageFills, hpage]
      exact filledTruthful_page hdb hcount horders
  | recovered remote item =>
    cases h
    obtain ⟨change, horders, _, hchange⟩ :=
      recoverOrder_orders agent remote ⟨0, 0, 0, none⟩ item
    refine iff_of_true (hdb.update ?_ horders fun row => ?_) trivial
    · unfold recoverOrder
      cases matchRemote remote item <;> rfl
    · rcases hchange with ⟨o, _, hlisted⟩ | ⟨_, hlost⟩
      · rw [(hlisted row).2]
        cases o.status <;> decide
      · rw [hlost row]
        decide
  | halted reason n =>
    cases h
    refine iff_of_true (hdb.of_rows rfl fun row hrow hfilled => ?_) trivial
    obtain ⟨old, hold, rfl⟩ := List.mem_map.mp hrow
    split_ifs at hfilled ⊢
    · exact absurd hfilled (by decide : "cancelled_by_halt" ≠ "filled")
    · exact hold

end Steps

/-- No run calls an order filled that is not, exactly when its steps complete the orders that they
call filled. -/
theorem filled_truthful_iff (cfg : Config) (env : IngestEnv) (kill : KillSwitch) (risk : RiskState)
    (steps : List OrderStep) :
    AllStates (orderStep cfg env) (fun agent => FilledTruthful agent.db) ⟨.empty, kill, risk⟩ steps ↔
      AllSteps (orderStep cfg env) (CompletesOrders env) ⟨.empty, kill, risk⟩ steps :=
  allStates_iff_allSteps (I := fun _ => True) (fun _ _ _ _ _ => trivial)
    (fun _ _ _ _ hdb h => orderStep_filledTruthful hdb h) trivial
    (fun _ hrow => absurd hrow List.not_mem_nil)

def canceledAfterFour : List OrderStep :=
  [.placed buySignal (1 / 2) 10 "c1" ⟨0, 0⟩, .answered "c1" (.ok ⟨"o1", "canceled"⟩) ⟨0, 0⟩,
    .ingested [⟨{ sweepFill "t1" (some 1000) with count := 4 }, 0, 0, 0⟩]]

theorem not_filled_truthful :
    ¬ AllStates (orderStep (.example (.fixed 0)) ⟨7 / 100, false, id⟩)
      (fun agent => FilledTruthful agent.db) ⟨.empty, ⟨none⟩, .start⟩ canceledAfterFour :=
  not_allStates_of_decide (by decide +kernel)

end KalshiAgent
