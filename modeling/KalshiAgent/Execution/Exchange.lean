import KalshiAgent.Execution.Executor
import KalshiAgent.Fills.Polling
import KalshiAgent.Positions.Exposure
import Mathlib.Algebra.Order.BigOperators.Group.List

/-! The exchange's side of the orders: what may still be executed of each, the executions, and what of
both no poll has ingested yet. -/

namespace KalshiAgent

section Sums
variable {α M : Type*} [AddCommGroup M]

theorem sum_map_set {l : List α} {i : ℕ} {x : α} (h : l[i]? = some x) (f : α → M) (y : α) :
    ((l.set i y).map f).sum = (l.map f).sum - f x + f y := by
  obtain ⟨hi, rfl⟩ := List.getElem?_eq_some_iff.mp h
  have hi' : i < (l.map f).length := by rwa [List.length_map]
  rw [List.map_set, List.sum_set', dif_pos hi', List.getElem_map]
  abel

variable [PartialOrder M] [IsOrderedAddMonoid M] {f : α → M} {p q : α → Bool}

theorem sum_filter_le {l : List α} (hf : ∀ a ∈ l, 0 ≤ f a) (hpq : ∀ a, p a = true → q a = true) :
    ((l.filter p).map f).sum ≤ ((l.filter q).map f).sum := by
  refine ((List.monotone_filter_right l hpq).map f).sum_le_sum fun x hx => ?_
  obtain ⟨a, ha, rfl⟩ := List.mem_map.mp hx
  exact hf a (List.mem_filter.mp ha).1

theorem sum_filter_add_le {l : List α} {x : α} (hf : ∀ a ∈ l, 0 ≤ f a)
    (hpq : ∀ a, p a = true → q a = true) (hx : x ∈ l) (hp : p x = false) (hq : q x = true) :
    ((l.filter p).map f).sum + f x ≤ ((l.filter q).map f).sum := by
  have hkept : (l.filter q).filter p = l.filter p := by
    rw [List.filter_filter]
    refine List.filter_congr fun a _ => ?_
    cases hpa : p a with
    | true => rw [hpq a hpa, Bool.true_and]
    | false => rw [Bool.false_and]
  have hlost : f x ≤ (((l.filter q).filter (fun a => !p a)).map f).sum := by
    refine List.single_le_sum ?_ (f x) (List.mem_map_of_mem ?_)
    · intro y hy
      obtain ⟨a, ha, rfl⟩ := List.mem_map.mp hy
      exact hf a (List.mem_filter.mp (List.mem_filter.mp ha).1).1
    · simp [List.mem_filter, hx, hq, hp]
  calc ((l.filter p).map f).sum + f x
      ≤ (((l.filter q).filter p).map f).sum +
          (((l.filter q).filter (fun a => !p a)).map f).sum := by
        rw [hkept]
        gcongr
    _ = ((l.filter q).map f).sum := by
        rw [← List.sum_append, ← List.map_append]
        exact ((List.filter_append_perm p (l.filter q)).map f).sum_eq

end Sums

/-- An order that the exchange may execute, with the contracts that are left of it. -/
structure WorkingOrder where
  orderId : String
  request : OrderRequest
  remaining : ℤ

structure PartialExecution where
  count : ℤ
  price : ℚ
  otherPrice : Option DecimalText
  tradeId : Option String
  isTaker : Bool
  time : Time

namespace WorkingOrder

def cost (order : WorkingOrder) : ℚ := order.request.limit.toDecimal * order.remaining

def fill (order : WorkingOrder) (e : PartialExecution) : TimedFill where
  tradeId := e.tradeId
  orderId := order.orderId
  ticker := order.request.ticker
  side := order.request.side
  action := order.request.action
  count := e.count
  yesPriceDollars := if order.request.side = .yes then some (.decimal e.price) else e.otherPrice
  noPriceDollars := if order.request.side = .yes then e.otherPrice else some (.decimal e.price)
  isTaker := e.isTaker
  createdTime := some e.time
  time := e.time
  dated := rfl

theorem fill_price (order : WorkingOrder) (e : PartialExecution) : (order.fill e).price = e.price := by
  unfold KalshiFill.price fillPrice fill
  cases order.request.side <;> rfl

end WorkingOrder

def TimedFill.cost (f : TimedFill) : ℚ := f.price * f.count

theorem TimedFill.cost_nonneg {f : TimedFill} (hcount : 1 ≤ f.count) (hprice : 0 ≤ f.price) :
    0 ≤ f.cost := mul_nonneg hprice (by exact_mod_cast (by omega : (0 : ℤ) ≤ f.count))

structure Exchange where
  working : List WorkingOrder
  executed : List TimedFill

namespace Exchange

/-- From now on the request may be executed, whether its response arrives or not. -/
def take (ex : Exchange) (orderId : String) (request : OrderRequest) : Exchange :=
  { ex with working := ex.working ++ [⟨orderId, request, max request.count 0⟩] }

def cut (ex : Exchange) (i : ℕ) (order : WorkingOrder) (fills : List TimedFill) : Exchange :=
  ⟨ex.working.set i order, ex.executed ++ fills⟩

def execute (ex : Exchange) (i : ℕ) (e : PartialExecution) : Option Exchange :=
  match ex.working[i]? with
  | none => none
  | some order =>
    if 1 ≤ e.count ∧ e.count ≤ order.remaining ∧ 0 ≤ e.price ∧
        e.price ≤ order.request.limit.toDecimal then
      some (ex.cut i { order with remaining := order.remaining - e.count } [order.fill e])
    else none

/-- What is left of an order is cancelled, or the order never reached the exchange. -/
def expire (ex : Exchange) (i : ℕ) : Option Exchange :=
  (ex.working[i]?).map (fun order => ex.cut i { order with remaining := 0 } [])

def unstored (ex : Exchange) (db : Db) : List TimedFill :=
  ex.executed.filter (fun f => !db.hasFill f.identity)

def inFlight {M : Type*} [AddCommGroup M] (ex : Exchange) (db : Db) (remainder : WorkingOrder → M)
    (execution : TimedFill → M) : M :=
  (ex.working.map remainder).sum + ((ex.unstored db).map execution).sum

def cost (ex : Exchange) (db : Db) : ℚ := ex.inFlight db WorkingOrder.cost TimedFill.cost

def Settled (ex : Exchange) (db : Db) : Prop :=
  (∀ order ∈ ex.working, order.remaining = 0) ∧ ∀ f ∈ ex.executed, db.hasFill f.identity = true

instance (ex : Exchange) (db : Db) : Decidable (ex.Settled db) := inferInstanceAs (Decidable (_ ∧ _))

structure WellFormed (ex : Exchange) : Prop where
  working : ∀ order ∈ ex.working, order.request.action = .buy ∧
    0 ≤ order.request.limit.toDecimal ∧ 0 ≤ order.remaining
  executed : ∀ f ∈ ex.executed, f.action = .buy ∧ 1 ≤ f.count ∧ 0 ≤ f.price

end Exchange

/-- What cutting an order to `order'` may do: no contract and no dollar is added. -/
structure Cuts (order order' : WorkingOrder) (fills : List TimedFill) : Prop where
  request : order'.request = order.request
  remaining : 0 ≤ order'.remaining
  executed : ∀ f ∈ fills, 0 < order.remaining ∧ f.ticker = order.request.ticker ∧
    f.side = order.request.side ∧ f.action = order.request.action ∧ 1 ≤ f.count ∧ 0 ≤ f.price
  contracts : order'.remaining + (fills.map (fun f => f.count)).sum ≤ order.remaining
  cost : order'.cost + (fills.map TimedFill.cost).sum ≤ order.cost

theorem Cuts.remaining_pos {order order' : WorkingOrder} {fills : List TimedFill}
    (h : Cuts order order' fills) (hleft : 0 < order'.remaining) : 0 < order.remaining := by
  have hfills : 0 ≤ (fills.map (fun f => f.count)).sum := by
    refine List.sum_nonneg fun x hx => ?_
    obtain ⟨f, hf, rfl⟩ := List.mem_map.mp hx
    have hcount := (h.executed f hf).2.2.2.2.1
    omega
  have hcontracts := h.contracts
  omega

namespace Exchange
variable {ex : Exchange} {db db' : Db}

section InFlight
variable {M : Type*} [AddCommGroup M] {remainder : WorkingOrder → M} {execution : TimedFill → M}

theorem inFlight_take (ex : Exchange) (db : Db) (orderId : String) (request : OrderRequest) :
    (ex.take orderId request).inFlight db remainder execution =
      ex.inFlight db remainder execution + remainder ⟨orderId, request, max request.count 0⟩ := by
  unfold inFlight take unstored
  rw [List.map_append, List.sum_append, List.map_singleton, List.sum_singleton]
  abel

variable [PartialOrder M] [IsOrderedAddMonoid M]

theorem inFlight_nonneg (hworking : ∀ order ∈ ex.working, 0 ≤ remainder order)
    (hexecuted : ∀ f ∈ ex.executed, 0 ≤ execution f) :
    0 ≤ ex.inFlight db remainder execution := by
  refine add_nonneg (List.sum_nonneg ?_) (List.sum_nonneg ?_)
  · intro x hx
    obtain ⟨order, horder, rfl⟩ := List.mem_map.mp hx
    exact hworking order horder
  · intro x hx
    obtain ⟨f, hf, rfl⟩ := List.mem_map.mp hx
    exact hexecuted f (List.mem_filter.mp hf).1

theorem inFlight_cut_le {i : ℕ} {order order' : WorkingOrder} {fills : List TimedFill}
    (hi : ex.working[i]? = some order) (hfills : ∀ f ∈ fills, 0 ≤ execution f)
    (hless : remainder order' + (fills.map execution).sum ≤ remainder order) :
    (ex.cut i order' fills).inFlight db remainder execution ≤
      ex.inFlight db remainder execution := by
  have hadded : ((fills.filter (fun f => !db.hasFill f.identity)).map execution).sum ≤
      (fills.map execution).sum := by
    have h := sum_filter_le (p := fun f => !db.hasFill f.identity) (q := fun _ => true) hfills
      (fun _ _ => rfl)
    rwa [List.filter_true] at h
  unfold inFlight cut unstored
  rw [sum_map_set hi, List.filter_append, List.map_append, List.sum_append]
  calc (ex.working.map remainder).sum - remainder order + remainder order' +
        (((ex.executed.filter (fun f => !db.hasFill f.identity)).map execution).sum +
          ((fills.filter (fun f => !db.hasFill f.identity)).map execution).sum)
      ≤ (ex.working.map remainder).sum - remainder order + remainder order' +
        (((ex.executed.filter (fun f => !db.hasFill f.identity)).map execution).sum +
          (fills.map execution).sum) := by gcongr
    _ = (ex.working.map remainder).sum - remainder order +
          ((ex.executed.filter (fun f => !db.hasFill f.identity)).map execution).sum +
        (remainder order' + (fills.map execution).sum) := by abel
    _ ≤ (ex.working.map remainder).sum - remainder order +
          ((ex.executed.filter (fun f => !db.hasFill f.identity)).map execution).sum +
        remainder order := by gcongr
    _ = (ex.working.map remainder).sum +
          ((ex.executed.filter (fun f => !db.hasFill f.identity)).map execution).sum := by abel

theorem not_stored_of_later (hmono : ∀ i, db.hasFill i = true → db'.hasFill i = true) (f : TimedFill)
    (h : (!db'.hasFill f.identity) = true) : (!db.hasFill f.identity) = true := by
  cases hold : db.hasFill f.identity with
  | true => simp [hmono _ hold] at h
  | false => rfl

theorem inFlight_stored_le (hnonneg : ∀ f ∈ ex.executed, 0 ≤ execution f)
    (hmono : ∀ i, db.hasFill i = true → db'.hasFill i = true) :
    ex.inFlight db' remainder execution ≤ ex.inFlight db remainder execution := by
  unfold inFlight unstored
  gcongr
  exact sum_filter_le hnonneg (not_stored_of_later hmono)

theorem inFlight_book_le {f : TimedFill} (hf : f ∈ ex.executed)
    (hnonneg : ∀ f ∈ ex.executed, 0 ≤ execution f)
    (hmono : ∀ i, db.hasFill i = true → db'.hasFill i = true)
    (hnew : db.hasFill f.identity = false) (hstored : db'.hasFill f.identity = true) :
    ex.inFlight db' remainder execution + execution f ≤ ex.inFlight db remainder execution := by
  unfold inFlight unstored
  rw [add_assoc]
  gcongr
  refine sum_filter_add_le hnonneg (not_stored_of_later hmono) hf ?_ ?_
  · rw [hstored]
    rfl
  · rw [hnew]
    rfl

end InFlight

theorem WellFormed.cost_nonneg (h : ex.WellFormed) (db : Db) : 0 ≤ ex.cost db := by
  refine inFlight_nonneg (fun order horder => ?_) (fun f hf => ?_)
  · obtain ⟨_, hlimit, hremaining⟩ := h.working order horder
    exact mul_nonneg hlimit (by exact_mod_cast hremaining)
  · obtain ⟨_, hcount, hprice⟩ := h.executed f hf
    exact TimedFill.cost_nonneg hcount hprice

theorem WellFormed.take (h : ex.WellFormed) (orderId : String) {request : OrderRequest}
    (hbuy : request.action = .buy) (hlimit : 0 ≤ request.limit.toDecimal) :
    (ex.take orderId request).WellFormed := by
  refine ⟨fun order horder => ?_, h.executed⟩
  rcases List.mem_append.mp horder with hold | hnew
  · exact h.working order hold
  · obtain rfl := List.mem_singleton.mp hnew
    exact ⟨hbuy, hlimit, le_max_right _ _⟩

theorem execute_cuts {ex' : Exchange} {i : ℕ} {e : PartialExecution} (h : ex.execute i e = some ex') :
    ∃ order order', ex.working[i]? = some order ∧ ex' = ex.cut i order' [order.fill e] ∧
      Cuts order order' [order.fill e] := by
  unfold execute at h
  cases hi : ex.working[i]? with
  | none => simp [hi] at h
  | some order =>
    simp only [hi] at h
    split_ifs at h with hguard
    cases h
    obtain ⟨hcount, hleft, hprice, hlimit⟩ := hguard
    have hcount' : (0 : ℚ) ≤ e.count := by exact_mod_cast (by omega : (0 : ℤ) ≤ e.count)
    refine ⟨order, _, rfl, rfl, rfl, sub_nonneg.mpr hleft, ?_, ?_, ?_⟩
    · intro f hf
      obtain rfl := List.mem_singleton.mp hf
      refine ⟨by omega, rfl, rfl, rfl, hcount, ?_⟩
      rwa [order.fill_price]
    · simp [WorkingOrder.fill]
    · have hcost : (order.fill e).cost = e.price * e.count := by
        rw [TimedFill.cost, order.fill_price]
        rfl
      have hcheap : e.price * (e.count : ℚ) ≤ order.request.limit.toDecimal * e.count := by gcongr
      rw [List.map_singleton, List.sum_singleton, hcost, WorkingOrder.cost, WorkingOrder.cost]
      push_cast
      linarith

theorem expire_cuts {ex' : Exchange} {i : ℕ} (hex : ex.WellFormed) (h : ex.expire i = some ex') :
    ∃ order order', ex.working[i]? = some order ∧ ex' = ex.cut i order' [] ∧
      Cuts order order' [] := by
  obtain ⟨order, hi, rfl⟩ := Option.map_eq_some_iff.mp h
  obtain ⟨_, hlimit, hremaining⟩ := hex.working order (List.mem_of_getElem? hi)
  refine ⟨order, _, hi, rfl, rfl, le_rfl, fun f hf => absurd hf List.not_mem_nil, hremaining, ?_⟩
  have hcost : 0 ≤ order.cost := mul_nonneg hlimit (by exact_mod_cast hremaining)
  simpa [WorkingOrder.cost] using hcost

section Cut
variable {i : ℕ} {order order' : WorkingOrder} {fills : List TimedFill}

theorem WellFormed.cut (h : ex.WellFormed) (hi : ex.working[i]? = some order)
    (hcut : Cuts order order' fills) : (ex.cut i order' fills).WellFormed := by
  obtain ⟨hbuy, hlimit, _⟩ := h.working order (List.mem_of_getElem? hi)
  refine ⟨fun o ho => ?_, fun f hf => ?_⟩
  · rcases List.mem_or_eq_of_mem_set ho with hold | rfl
    · exact h.working o hold
    · rw [hcut.request]
      exact ⟨hbuy, hlimit, hcut.remaining⟩
  · rcases List.mem_append.mp hf with hold | hnew
    · exact h.executed f hold
    · obtain ⟨_, _, _, haction, hcount, hprice⟩ := hcut.executed f hnew
      exact ⟨haction.trans hbuy, hcount, hprice⟩

end Cut

end Exchange

theorem book_hasFill {rate δ : ℚ} {db db' : Db} {a : Arrival} {f : TimedFill}
    (ha : a.fill = f.toKalshiFill) (happ : applyFill rate db a = .ok (db', δ))
    (hnew : db.hasFill a.lookupIdentity = false) :
    db.hasFill f.identity = false ∧ db'.hasFill f.identity = true ∧
      ∀ i, db.hasFill i = true → db'.hasFill i = true := by
  have hid : a.lookupIdentity = f.identity := f.lookupIdentity_eq ha
  have hstores : ∀ i, db'.hasFill i = true ↔ db.hasFill i = true ∨ a.storedIdentity = i := by
    rcases applyFill_cases happ with ⟨hdup, _, _⟩ | ⟨_, price, moved, gross, _, _, _, rfl⟩
    · exact absurd (hnew.symm.trans hdup) Bool.false_ne_true
    · exact Db.hasFill_recordFill db _ _
  refine ⟨hid ▸ hnew, (hstores _).mpr (.inr (f.storedIdentity_eq ha)), fun i hi => ?_⟩
  exact (hstores i).mpr (.inl hi)

end KalshiAgent
